import Mathlib.Data.List.Dedup
import Mathlib.Data.List.Induction
import Agregator.RelTable
/-!
# MasterPrices — the price the catalogue filters by

`masters.min_effective_price_kopecks` is kept by triggers: one for each kind of statement on `master_services`, and one for
every master whose `hourly_rate` is set.  It stands for the query it has replaced; `prices_right_iff` says after which
statements it does.
-/
namespace Agregator

open Rel

structure PricedMaster where
  id : String
  hourlyRate : ℤ
  minEffectivePrice : Option ℤ
deriving DecidableEq, Repr

structure PricedService where
  id : String
  masterID : String
  price : ℤ
deriving DecidableEq, Repr

def pricedMasterSchema : Schema PricedMaster := ⟨fun _ => true, fun a b => a.id == b.id, fun _ _ => Bool.beq_comm⟩

def pricedServiceSchema : Schema PricedService :=
  ⟨fun s => decide (0 ≤ s.price), fun a b => a.id == b.id, fun _ _ => Bool.beq_comm⟩

/-- The two tables; a service belongs to a master that is there. -/
structure PriceDB where
  masters : Table pricedMasterSchema
  services : Table pricedServiceSchema
  refs : ∀ s ∈ services.rows, ∃ m ∈ masters.rows, m.id = s.masterID

inductive PriceErr where
  | violation (v : Violation)
  | foreignKey
deriving DecidableEq, Repr

/-! ## The expressions -/

/-- `NULLIF(x, y)`. -/
def nullIf (x : Option ℤ) (y : ℤ) : Option ℤ := if x = some y then none else x

/-- `COALESCE(x, y)`. -/
def coalesce (x y : Option ℤ) : Option ℤ := x.or y

namespace PriceDB

/-- `MIN(ms.price)` over the services of a master with a positive price. -/
def minPositive (db : PriceDB) (masterID : String) : Option ℤ :=
  ((db.services.select fun s => s.masterID == masterID && decide (0 < s.price)).map (·.price)).min?

/-- The query that was replaced. -/
def replacedQuery (db : PriceDB) (m : PricedMaster) : ℤ := (db.minPositive m.id).getD m.hourlyRate

/-- The prices `LEFT JOIN master_services` finds for a master: one `NULL` if there are none. -/
def joined (db : PriceDB) (masterID : String) : List (Option ℤ) :=
  match db.services.select (·.masterID == masterID) with
  | [] => [none]
  | rows => rows.map fun s => some s.price

/-- `MIN(ms.price) FILTER (WHERE ms.price > 0)`. -/
def minFiltered (prices : List (Option ℤ)) : Option ℤ := ((prices.filter fun x => x.any fun p => decide (0 < p)).filterMap id).min?

/-! ## The triggers -/

/-- `UPDATE masters SET min_effective_price_kopecks`. -/
def setPrices (db : PriceDB) (v : PricedMaster → Option ℤ) : PriceDB where
  masters := db.masters.rewrite (fun m => { m with minEffectivePrice := v m }) (fun _ => rfl) fun _ _ => rfl
  services := db.services
  refs s hs := by
    obtain ⟨m, hm, hid⟩ := db.refs s hs
    exact ⟨_, List.mem_map.2 ⟨m, hm, rfl⟩, hid⟩

/-- `fn_recompute_master_min_price_ids`. -/
def recomputeIDs (ids : List String) (db : PriceDB) : PriceDB :=
  db.setPrices fun m =>
    if m.id ∈ ids then coalesce (nullIf (minFiltered (db.joined m.id)) 0) (some m.hourlyRate) else m.minEffectivePrice

/-- `fn_recompute_master_min_price`, of the trigger on `masters`. -/
def recompute (id : String) (db : PriceDB) : PriceDB :=
  let v := coalesce (nullIf (db.minPositive id) 0) ((db.masters.get (·.id == id)).map (·.hourlyRate))
  db.setPrices fun m => if m.id = id then v else m.minEffectivePrice

/-- `ARRAY_AGG(DISTINCT master_id)`. -/
def arrayAgg (ids : List String) : Option (List String) := if ids = [] then none else some ids.dedup

/-- The functions of the statement triggers, for the rows of the transition tables. -/
def afterServices (rows : List PricedService) (db : PriceDB) : PriceDB :=
  match arrayAgg (rows.map (·.masterID)) with
  | none => db
  | some ids => db.recomputeIDs ids

end PriceDB

/-! ## The statements -/

/-- What `INSERT INTO masters` gives; the price is left out. -/
structure NewMaster where
  id : String
  hourlyRate : ℤ
deriving DecidableEq, Repr

/-- `rate` is the expression `hourly_rate` is set to, if it is set. -/
inductive PriceStmt where
  | insertMasters (rows : List NewMaster)
  | updateMasters (p : PricedMaster → Bool) (rate : Option (PricedMaster → ℤ))
  | deleteMasters (p : PricedMaster → Bool)
  | insertServices (rows : List PricedService)
  | updateServices (p : PricedService → Bool) (f : PricedService → PricedService)
  | deleteServices (p : PricedService → Bool)

namespace PriceDB

/-- A new list of services, whose foreign keys are checked. -/
def withServices (db : PriceDB) (services : Table pricedServiceSchema) : Except PriceErr PriceDB :=
  if h : ∀ s ∈ services.rows, ∃ m ∈ db.masters.rows, m.id = s.masterID then .ok ⟨db.masters, services, h⟩
  else .error .foreignKey

def insertMasters (rows : List NewMaster) (db : PriceDB) : Except PriceErr PriceDB :=
  match h : db.masters.insertAll (rows.map fun r => ⟨r.id, r.hourlyRate, none⟩) with
  | .error v => .error (.violation v)
  | .ok masters => .ok ⟨masters, db.services, fun s hs => by
      obtain ⟨m, hm, hid⟩ := db.refs s hs
      exact ⟨m, by rw [Table.insertAll_rows h]; exact List.mem_append_left _ hm, hid⟩⟩

/-- The rate of the rows a condition is about. -/
def setRates (db : PriceDB) (p : PricedMaster → Bool) (rate : PricedMaster → ℤ) : PriceDB where
  masters := db.masters.rewrite (fun m => if p m then { m with hourlyRate := rate m } else m)
    (fun _ => rfl) fun a b => by cases p a <;> cases p b <;> rfl
  services := db.services
  refs s hs := by
    obtain ⟨m, hm, hid⟩ := db.refs s hs
    refine ⟨_, List.mem_map.2 ⟨m, hm, rfl⟩, ?_⟩
    cases p m <;> exact hid

/-- The trigger is for every row, and only for a statement that sets `hourly_rate`. -/
def updateMasters (p : PricedMaster → Bool) (rate : Option (PricedMaster → ℤ)) (db : PriceDB) : PriceDB :=
  match rate with
  | none => db
  | some rate => (db.masters.select p).foldl (fun db m => db.recompute m.id) (db.setRates p rate)

/-- `ON DELETE CASCADE`: the services go with their master, by one more statement for each master. -/
def deleteMasters (p : PricedMaster → Bool) (db : PriceDB) : PriceDB :=
  let gone := db.masters.select p
  gone.foldl (fun d m => d.afterServices (db.services.select (·.masterID == m.id)))
    { masters := db.masters.delete p
      services := db.services.delete fun s => gone.any fun m => m.id == s.masterID
      refs := fun s hs => by
        obtain ⟨hs, hkeep⟩ := List.mem_filter.1 hs
        obtain ⟨m, hm, hid⟩ := db.refs s hs
        refine ⟨m, List.mem_filter.2 ⟨hm, ?_⟩, hid⟩
        by_contra hp
        rw [Bool.not_eq_true', List.any_eq_false] at hkeep
        exact hkeep m (List.mem_filter.2 ⟨hm, by simpa using hp⟩) (by simpa using hid) }

def insertServices (rows : List PricedService) (db : PriceDB) : Except PriceErr PriceDB := do
  match db.services.insertAll rows with
  | .error v => .error (.violation v)
  | .ok services => return (← db.withServices services).afterServices rows

/-- The transition tables hold the rows before and after. -/
def updateServices (p : PricedService → Bool) (f : PricedService → PricedService) (db : PriceDB) : Except PriceErr PriceDB := do
  match db.services.update p f with
  | .error v => .error (.violation v)
  | .ok services => return (← db.withServices services).afterServices ((db.services.select p).map f ++ db.services.select p)

def deleteServices (p : PricedService → Bool) (db : PriceDB) : PriceDB :=
  afterServices (db.services.select p)
    ⟨db.masters, db.services.delete p, fun s hs => db.refs s (List.mem_filter.1 hs).1⟩

def exec (db : PriceDB) : PriceStmt → Except PriceErr PriceDB
  | .insertMasters rows => db.insertMasters rows
  | .updateMasters p rate => .ok (db.updateMasters p rate)
  | .deleteMasters p => .ok (db.deleteMasters p)
  | .insertServices rows => db.insertServices rows
  | .updateServices p f => db.updateServices p f
  | .deleteServices p => .ok (db.deleteServices p)

/-- A statement that fails changes nothing. -/
def next (db : PriceDB) (stmt : PriceStmt) : PriceDB :=
  match db.exec stmt with
  | .ok db' => db'
  | .error _ => db

def run (db : PriceDB) (stmts : List PriceStmt) : PriceDB := stmts.foldl next db

/-- The column, `NULL` read as zero, is the query it has replaced. -/
def Right (db : PriceDB) : Prop := ∀ m ∈ db.masters.rows, m.minEffectivePrice.getD 0 = db.replacedQuery m

end PriceDB

/-- The statements of `replaceServicesTx`. -/
def replaceServicesTx (masterID : String) (items : List PricedService) : List PriceStmt :=
  .deleteServices (·.masterID == masterID) :: items.map fun it => .insertServices [{ it with masterID := masterID }]

/-! ## What the triggers compute -/

namespace PriceDB

variable {db db' : PriceDB}

theorem pos_of_minPositive {masterID : String} {x : ℤ} (h : db.minPositive masterID = some x) : 0 < x := by
  obtain ⟨s, hs, rfl⟩ := List.mem_map.1 (List.min?_mem h)
  have hp := (List.mem_filter.1 hs).2
  rw [Bool.and_eq_true, decide_eq_true_eq] at hp
  exact hp.2

/-- A minimum of positive prices is not taken for zero. -/
theorem coalesce_minPositive (masterID : String) (rate : ℤ) :
    coalesce (nullIf (db.minPositive masterID) 0) (some rate) = some ((db.minPositive masterID).getD rate) := by
  cases h : db.minPositive masterID with
  | none => rfl
  | some x =>
    have hx := pos_of_minPositive h
    have hne : (some x : Option ℤ) ≠ some 0 := by
      rw [Ne, Option.some.injEq]
      omega
    rw [nullIf, if_neg hne]
    rfl

/-- **The aggregate over the left join is the minimum over the services.** -/
theorem minFiltered_joined (masterID : String) : minFiltered (db.joined masterID) = db.minPositive masterID := by
  have hsel : (db.services.select fun s => s.masterID == masterID && decide (0 < s.price)) =
      (db.services.select (·.masterID == masterID)).filter fun s => decide (0 < s.price) := by
    unfold Table.select
    rw [List.filter_filter]
    exact List.filter_congr fun s _ => Bool.and_comm _ _
  have hmap : ∀ rows : List PricedService, ((rows.map fun s => some s.price).filter fun x => x.any fun p => decide (0 < p)).filterMap id =
      (rows.filter fun s => decide (0 < s.price)).map (·.price) := by
    intro rows
    induction rows with
    | nil => rfl
    | cons s rows ih =>
      by_cases hs : 0 < s.price
      · simp [hs] at ih ⊢
        exact ih
      · simp [hs] at ih ⊢
        exact ih
  unfold joined minPositive minFiltered
  rw [hsel]
  cases db.services.select (·.masterID == masterID) with
  | nil => rfl
  | cons s rows => exact congrArg _ (hmap (s :: rows))

/-- The query goes by the services of the master, and its rate. -/
theorem replacedQuery_congr {m m' : PricedMaster} (hid : m'.id = m.id) (hrate : m'.hourlyRate = m.hourlyRate)
    (hs : db'.services.select (·.masterID == m.id) = db.services.select (·.masterID == m.id)) :
    db'.replacedQuery m' = db.replacedQuery m := by
  unfold replacedQuery
  rw [← minFiltered_joined, ← minFiltered_joined, hid, hrate]
  unfold joined
  rw [hs]

/-- **Prices that are set are right if they are the query.** -/
theorem setPrices_right {v : PricedMaster → Option ℤ} (h : ∀ m ∈ db.masters.rows, (v m).getD 0 = db.replacedQuery m) :
    (db.setPrices v).Right := by
  intro m' hm'
  obtain ⟨m, hm, rfl⟩ := List.mem_map.1 hm'
  exact h m hm

theorem recomputeIDs_right {ids : List String}
    (h : ∀ m ∈ db.masters.rows, m.id ∉ ids → m.minEffectivePrice.getD 0 = db.replacedQuery m) : (db.recomputeIDs ids).Right := by
  refine setPrices_right fun m hm => ?_
  by_cases hid : m.id ∈ ids
  · rw [if_pos hid, minFiltered_joined, coalesce_minPositive]
    rfl
  · rw [if_neg hid]
    exact h m hm hid

/-- **The statement triggers bring the column up to date** where it is right but for the masters of the rows. -/
theorem afterServices_right {rows : List PricedService}
    (h : ∀ m ∈ db.masters.rows, m.id ∉ rows.map (·.masterID) → m.minEffectivePrice.getD 0 = db.replacedQuery m) :
    (db.afterServices rows).Right := by
  unfold afterServices arrayAgg
  by_cases hids : rows.map (·.masterID) = []
  · rw [if_pos hids]
    exact fun m hm => h m hm (by rw [hids]; exact List.not_mem_nil)
  · rw [if_neg hids]
    exact recomputeIDs_right fun m hm hid => h m hm fun hmem => hid (List.mem_dedup.2 hmem)

/-- The row trigger brings the column of its master up to date, and leaves the others. -/
theorem recompute_rows {id : String} {m' : PricedMaster} (hm' : m' ∈ (db.recompute id).masters.rows) :
    ∃ m ∈ db.masters.rows, m'.id = m.id ∧ (db.recompute id).replacedQuery m' = db.replacedQuery m ∧
      m'.minEffectivePrice.getD 0 = if m.id = id then db.replacedQuery m else m.minEffectivePrice.getD 0 := by
  obtain ⟨m, hm, rfl⟩ := List.mem_map.1 hm'
  refine ⟨m, hm, rfl, rfl, ?_⟩
  by_cases hid : m.id = id
  · have hget : db.masters.get (·.id == id) = some m :=
      db.masters.get_key hm (by simpa using hid) fun x hx => by simpa [pricedMasterSchema, hid] using hx
    simp only [hid, if_true, hget, Option.map_some, coalesce_minPositive]
    rw [← hid]
    rfl
  · simp only [hid, if_false]

/-- **A row trigger for each of some masters** brings the column up to date where it is right but for them. -/
theorem recompute_all : ∀ {ms : List PricedMaster} {db : PriceDB},
    (∀ m ∈ db.masters.rows, m.id ∉ ms.map (·.id) → m.minEffectivePrice.getD 0 = db.replacedQuery m) →
    (ms.foldl (fun db m => db.recompute m.id) db).Right
  | [], _, h => fun m hm => h m hm List.not_mem_nil
  | m₀ :: ms, db, h => by
    rw [List.foldl_cons]
    refine recompute_all fun m' hm' hid => ?_
    obtain ⟨m, hm, hid', hq, hmin⟩ := recompute_rows hm'
    rw [hq, hmin]
    by_cases heq : m.id = m₀.id
    · rw [if_pos heq]
    · rw [if_neg heq]
      refine h m hm fun hmem => ?_
      rcases List.mem_cons.1 hmem with hmem | hmem
      · exact heq hmem
      · exact hid (hid' ▸ hmem)

/-! ## What the statements keep -/

theorem withServices_ok {services : Table pricedServiceSchema} (h : db.withServices services = .ok db') :
    db'.masters = db.masters ∧ db'.services = services := by
  unfold withServices at h
  by_cases hr : ∀ s ∈ services.rows, ∃ m ∈ db.masters.rows, m.id = s.masterID
  · rw [dif_pos hr] at h
    cases h
    exact ⟨rfl, rfl⟩
  · rw [dif_neg hr] at h
    cases h

/-- A statement on the services whose rows are those of the transition tables. -/
theorem services_right {services : Table pricedServiceSchema} {rows : List PricedService} (h0 : db.Right)
    (hw : db.withServices services = .ok db')
    (hs : ∀ masterID, masterID ∉ rows.map (·.masterID) →
      services.select (·.masterID == masterID) = db.services.select (·.masterID == masterID)) : (db'.afterServices rows).Right := by
  obtain ⟨hm, rfl⟩ := withServices_ok hw
  refine afterServices_right fun m hmem hid => ?_
  rw [hm] at hmem
  exact (h0 m hmem).trans (replacedQuery_congr rfl rfl (hs m.id hid)).symm

theorem insertServices_right {rows : List PricedService} (h0 : db.Right) (h : db.insertServices rows = .ok db') : db'.Right := by
  unfold insertServices at h
  cases hi : db.services.insertAll rows with
  | error v =>
    rw [hi] at h
    cases h
  | ok services =>
    rw [hi] at h
    cases hw : db.withServices services with
    | error e =>
      simp only [hw, bind, Except.bind] at h
      cases h
    | ok db₁ =>
      simp only [hw, bind, Except.bind] at h
      cases h
      refine services_right h0 hw fun masterID hid => ?_
      have hnone : rows.filter (·.masterID == masterID) = [] :=
        List.filter_eq_nil_iff.2 fun s hs heq => hid (List.mem_map.2 ⟨s, hs, by simpa using heq⟩)
      unfold Table.select
      rw [Table.insertAll_rows hi, List.filter_append, hnone, List.append_nil]

theorem updateServices_right {p : PricedService → Bool} {f : PricedService → PricedService} (h0 : db.Right)
    (h : db.updateServices p f = .ok db') : db'.Right := by
  unfold updateServices at h
  cases hu : db.services.update p f with
  | error v =>
    rw [hu] at h
    cases h
  | ok services =>
    rw [hu] at h
    cases hw : db.withServices services with
    | error e =>
      simp only [hw, bind, Except.bind] at h
      cases h
    | ok db₁ =>
      simp only [hw, bind, Except.bind] at h
      cases h
      refine services_right h0 hw fun masterID hid => Table.select_update_others hu fun s hs hp => ?_
      -- a service that comes or goes would bring its master into the transition tables
      have hmem : s ∈ db.services.select p := List.mem_filter.2 ⟨hs, hp⟩
      constructor
      · by_contra heq
        refine hid (List.mem_map.2 ⟨s, List.mem_append_right _ hmem, by simpa using heq⟩)
      · by_contra heq
        refine hid (List.mem_map.2 ⟨f s, List.mem_append_left _ (List.mem_map.2 ⟨s, hmem, rfl⟩), by simpa using heq⟩)

/-- A master whose services are not among those deleted. -/
theorem select_delete {p q : PricedService → Bool} {t : Table pricedServiceSchema} (h : ∀ s ∈ t.rows, q s = true → p s = false) :
    (t.delete p).select q = t.select q := by
  unfold Table.select Table.delete
  rw [List.filter_filter]
  refine List.filter_congr fun s hs => ?_
  cases hq : q s with
  | false => rfl
  | true => simp [h s hs hq]

theorem deleteServices_right {p : PricedService → Bool} (h0 : db.Right) : (db.deleteServices p).Right := by
  refine afterServices_right fun m hm hid => (h0 m hm).trans (replacedQuery_congr rfl rfl (select_delete fun s hs heq => ?_)).symm
  by_contra hp
  exact hid (List.mem_map.2 ⟨s, List.mem_filter.2 ⟨hs, by simpa using hp⟩, by simpa using heq⟩)

theorem updateMasters_right {p : PricedMaster → Bool} {rate : Option (PricedMaster → ℤ)} (h0 : db.Right) :
    (db.updateMasters p rate).Right := by
  cases rate with
  | none => exact h0
  | some rate =>
    refine recompute_all fun m' hm' hid => ?_
    obtain ⟨m, hm, rfl⟩ := List.mem_map.1 hm'
    cases hp : p m with
    | true =>
      refine absurd (List.mem_map.2 ⟨m, List.mem_filter.2 ⟨hm, hp⟩, ?_⟩) hid
      rw [hp]
      rfl
    | false => exact h0 m hm

theorem deleteMasters_right {p : PricedMaster → Bool} (h0 : db.Right) : (db.deleteMasters p).Right := by
  have hfold : ∀ (ms : List PricedMaster) (rows : PricedMaster → List PricedService) (d : PriceDB), d.Right →
      (ms.foldl (fun d m => d.afterServices (rows m)) d).Right := by
    intro ms rows
    induction ms with
    | nil => exact fun _ h => h
    | cons m ms ih => exact fun d h => ih _ (afterServices_right fun m hm _ => h m hm)
  refine hfold _ _ _ fun m hm => ?_
  obtain ⟨hm, hkeep⟩ := List.mem_filter.1 hm
  refine (h0 m hm).trans (replacedQuery_congr rfl rfl (select_delete fun s _ heq => ?_)).symm
  -- the master of such a service stays
  rw [List.any_eq_false]
  intro g hg hgid
  obtain ⟨hg, hgone⟩ := List.mem_filter.1 hg
  have hsame : g.id = m.id := by
    rw [beq_iff_eq] at hgid heq
    exact hgid.trans heq
  rw [db.masters.eq_of_clash hg hm (by simpa [pricedMasterSchema] using hsame)] at hgone
  rw [hgone] at hkeep
  cases hkeep

/-- **New masters have the right price exactly if their rate is zero.** -/
theorem insertMasters_right_iff {rows : List NewMaster} (h0 : db.Right) (h : db.insertMasters rows = .ok db') :
    db'.Right ↔ ∀ r ∈ rows, r.hourlyRate = 0 := by
  have hrows : db'.services = db.services ∧
      db'.masters.rows = db.masters.rows ++ rows.map fun r => ⟨r.id, r.hourlyRate, none⟩ := by
    unfold insertMasters at h
    split at h
    · cases h
    · rename_i masters hm
      cases h
      exact ⟨rfl, Table.insertAll_rows hm⟩
  obtain ⟨hs, hrows⟩ := hrows
  -- a new master has no services yet
  have hnew : ∀ r ∈ rows, db'.replacedQuery ⟨r.id, r.hourlyRate, none⟩ = r.hourlyRate := by
    intro r hr
    have hnone : db'.minPositive r.id = none := by
      unfold minPositive
      rw [List.min?_eq_none_iff, List.map_eq_nil_iff, hs]
      refine List.filter_eq_nil_iff.2 fun s hmem hp => ?_
      rw [Bool.and_eq_true, beq_iff_eq] at hp
      obtain ⟨m, hm, hid⟩ := db.refs s hmem
      have hclash := db'.masters.noClash
      rw [hrows, List.pairwise_append] at hclash
      have hne := hclash.2.2 m hm _ (List.mem_map.2 ⟨r, hr, rfl⟩)
      simp [pricedMasterSchema, hid, hp.1] at hne
    rw [replacedQuery, hnone]
    rfl
  constructor
  · intro hR r hr
    have hright := hR ⟨r.id, r.hourlyRate, none⟩ (by
      rw [hrows]
      exact List.mem_append_right _ (List.mem_map.2 ⟨r, hr, rfl⟩))
    rw [hnew r hr] at hright
    exact hright.symm
  · intro hz m hm
    rw [hrows] at hm
    rcases List.mem_append.1 hm with hm | hm
    · exact (h0 m hm).trans (replacedQuery_congr rfl rfl (by rw [hs])).symm
    · obtain ⟨r, hr, rfl⟩ := List.mem_map.1 hm
      rw [hnew r hr, hz r hr]
      rfl

/-- **What every statement but an insertion of masters keeps.** -/
theorem exec_right {stmt : PriceStmt} (hstmt : ∀ rows, stmt ≠ .insertMasters rows) (h0 : db.Right) (h : db.exec stmt = .ok db') :
    db'.Right := by
  cases stmt with
  | insertMasters rows => exact absurd rfl (hstmt rows)
  | updateMasters p rate =>
    cases h
    exact updateMasters_right h0
  | deleteMasters p =>
    cases h
    exact deleteMasters_right h0
  | insertServices rows => exact insertServices_right h0 h
  | updateServices p f => exact updateServices_right h0 h
  | deleteServices p =>
    cases h
    exact deleteServices_right h0

end PriceDB

/-! ## The sequences of statements -/

theorem PriceDB.run_concat (db : PriceDB) (stmts : List PriceStmt) (stmt : PriceStmt) :
    db.run (stmts ++ [stmt]) = (db.run stmts).next stmt := by
  simp only [PriceDB.run, List.foldl_append, List.foldl_cons, List.foldl_nil]

/-- The masters that are inserted, when they are, have the rate zero. -/
def ZeroRates (db : PriceDB) : PriceStmt → Prop
  | .insertMasters rows => (∃ db', db.insertMasters rows = .ok db') → ∀ r ∈ rows, r.hourlyRate = 0
  | _ => True

/-- **One statement.** -/
theorem PriceDB.next_right_iff {db : PriceDB} (h0 : db.Right) (stmt : PriceStmt) : (db.next stmt).Right ↔ ZeroRates db stmt := by
  unfold PriceDB.next
  cases he : db.exec stmt with
  | error err =>
    refine ⟨fun _ => ?_, fun _ => h0⟩
    cases stmt with
    | insertMasters rows =>
      rintro ⟨db', hok⟩
      have he : db.insertMasters rows = .error err := he
      rw [hok] at he
      cases he
    | updateMasters p rate => trivial
    | deleteMasters p => trivial
    | insertServices rows => trivial
    | updateServices p f => trivial
    | deleteServices p => trivial
  | ok db' =>
    cases stmt with
    | insertMasters rows =>
      have hiff := PriceDB.insertMasters_right_iff h0 he
      exact ⟨fun h _ => hiff.1 h, fun h => hiff.2 (h ⟨db', he⟩)⟩
    | updateMasters p rate => exact ⟨fun _ => trivial, fun _ => PriceDB.exec_right (fun _ => by simp) h0 he⟩
    | deleteMasters p => exact ⟨fun _ => trivial, fun _ => PriceDB.exec_right (fun _ => by simp) h0 he⟩
    | insertServices rows => exact ⟨fun _ => trivial, fun _ => PriceDB.exec_right (fun _ => by simp) h0 he⟩
    | updateServices p f => exact ⟨fun _ => trivial, fun _ => PriceDB.exec_right (fun _ => by simp) h0 he⟩
    | deleteServices p => exact ⟨fun _ => trivial, fun _ => PriceDB.exec_right (fun _ => by simp) h0 he⟩

/-- **After each statement of a sequence the column is the query it has replaced, exactly if the masters that are inserted
have the rate zero.** -/
theorem prices_right_iff {db : PriceDB} (h0 : db.Right) (stmts : List PriceStmt) :
    (∀ pre, pre <+: stmts → (db.run pre).Right) ↔
      ∀ pre stmt, pre ++ [stmt] <+: stmts → ZeroRates (db.run pre) stmt := by
  constructor
  · intro h pre stmt hpre
    have hbefore := h pre ((List.prefix_append _ _).trans hpre)
    have hafter := h _ hpre
    rw [PriceDB.run_concat] at hafter
    exact (PriceDB.next_right_iff hbefore stmt).1 hafter
  · intro h pre
    induction pre using List.reverseRecOn with
    | nil => exact fun _ => h0
    | append_singleton pre stmt ih =>
      intro hpre
      rw [PriceDB.run_concat]
      exact (PriceDB.next_right_iff (ih ((List.prefix_append _ _).trans hpre)) stmt).2 (h pre stmt hpre)

/-- `ReplaceServices` keeps the column right with each of its statements. -/
theorem replaceServicesTx_right {db : PriceDB} (h0 : db.Right) (masterID : String) (items : List PricedService) :
    ∀ pre, pre <+: replaceServicesTx masterID items → (db.run pre).Right := by
  intro pre
  induction pre using List.reverseRecOn with
  | nil => exact fun _ => h0
  | append_singleton pre stmt ih =>
    intro hpre
    rw [PriceDB.run_concat]
    refine (PriceDB.next_right_iff (ih ((List.prefix_append _ _).trans hpre)) stmt).2 ?_
    rcases List.mem_cons.1 (hpre.subset (List.mem_append_right pre (List.mem_singleton_self stmt))) with rfl | hmem
    · trivial
    · obtain ⟨it, -, rfl⟩ := List.mem_map.1 hmem
      trivial

theorem empty_right : (⟨.empty _, .empty _, fun _ hs => absurd hs List.not_mem_nil⟩ : PriceDB).Right :=
  fun _ hm => absurd hm List.not_mem_nil

/-- A master with a rate and no services is taken for one without a price. -/
theorem prices_wrong : ∃ (db : PriceDB) (stmts : List PriceStmt), db.Right ∧ ¬ ∀ pre, pre <+: stmts → (db.run pre).Right := by
  refine ⟨_, [.insertMasters [⟨"m1", 2500⟩]], empty_right, fun h => ?_⟩
  have hright := h _ List.prefix_rfl ⟨"m1", 2500, none⟩ (by decide +kernel)
  have hq : ((⟨.empty _, .empty _, fun _ hs => absurd hs List.not_mem_nil⟩ : PriceDB).run
      [.insertMasters [⟨"m1", 2500⟩]]).replacedQuery ⟨"m1", 2500, none⟩ = 2500 := by decide +kernel
  rw [hq] at hright
  cases hright

/-- The rate of a new master, set later. -/
theorem set_later_right :
    ((⟨.empty _, .empty _, fun _ hs => absurd hs List.not_mem_nil⟩ : PriceDB).run
      [PriceStmt.insertMasters [⟨"m1", 0⟩], .updateMasters (fun _ => true) (some fun _ => 2500)]).Right := by
  refine (prices_right_iff empty_right _).2 (fun pre stmt hpre => ?_) _ List.prefix_rfl
  obtain ⟨post, hpost⟩ := hpre
  rcases pre with _ | ⟨s₁, _ | ⟨s₂, pre⟩⟩
  · cases hpost
    intro _ r hr
    rw [List.mem_singleton.1 hr]
  · cases hpost
    trivial
  · exact absurd (congrArg List.length hpost) (by simp)

end Agregator
