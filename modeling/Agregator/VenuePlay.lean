import Agregator.VenueWrites
/-!
# VenuePlay — runs on the cards by a schedule

A turn of a schedule in which every statement takes effect, and a venue to play with.
-/
namespace Agregator

open Rel Conc

/-- What the environment has in store for a turn: the keys it draws, and whether the cache answers. -/
structure CardTurn where
  newID : ℕ → String
  hit : Bool

namespace CardTurn

def env (t : CardTurn) (now : Time) : CardEnv := ⟨⟨now, t.newID, id⟩, .none, t.hit, none, t.newID 0⟩

def run (rules : CardRules) (t : CardTurn) (o : CardOp) (w : CardWorld) : Option (o.Res × CardWorld) :=
  if isUUID (t.newID 0) then w.run rules (t.env w.clock) o else none

theorem exec {rules : CardRules} (t : CardTurn) (o : CardOp) (w : CardWorld) (r : o.Res) (w' : CardWorld)
    (h : t.run rules o w = some (r, w')) : CardWorld.Exec rules o w r w' := by
  unfold run at h
  split at h
  · rename_i hid
    exact ⟨t.env w.clock, rfl, fun l => List.Perm.refl l, hid, h⟩
  · cases h

end CardTurn

/-! ## Ann's bath -/

def ann : String := "11111111-1111-1111-1111-111111111111"

def annsVenue : String := "22222222-2222-2222-2222-222222222222"

/-- The rules on the texts below. -/
def plainCards : CardRules where
  slug s := s
  lower s := s
  url s := if s = "https://maps.example/1" then some ("https", "maps.example", "maps.example") else none
  json s := if s = "{}" then some true else none
  jsonb s := if s = "{}" then some "{}" else none

def noCards : CardWorld := ⟨.empty, fun _ => none, [], fun _ => none, 0⟩

def annsRequest (halls : List VenueHallInput) : CreateVenueRequest where
  ownerID := ann
  name := "bath"
  type := "banya"
  description := "old"
  address := ""
  city := "Perm"
  latitude := 58
  longitude := 56
  priceFrom := 0
  priceWeekend := 0
  capacity := 0
  amenities := []
  workingHours := ""
  phone := ""
  legalEntityName := "Ann"
  inn := "7700000000"
  ogrn := "1027700000000"
  publicListingURL := "https://maps.example/1"
  verificationNote := ""
  socialLinks := ""
  payoutLegalForm := "ip"
  startAsDraft := false
  services := []
  halls := halls

def annsTurn : CardTurn := ⟨fun _ => annsVenue, false⟩

/-- Her venue as it is entered. -/
def annsCard : VenueCard :=
  { CardServer.newCard (annsRequest []) with id := annsVenue, slug := "bath", workingHours := "{}", socialLinks := "{}" }

theorem annsCard_check : venueCardSchema.check annsCard = true := by decide +kernel

/-- Her venue is there, without halls, and waits for the moderators. -/
def annsCards : CardWorld :=
  { noCards with db := { CardDB.empty with venues := ⟨[annsCard], by simpa using annsCard_check, by simp⟩ } }

theorem cards_played (w₀ : CardWorld) (ms : List (Move CardCall CardTurn)) {Q : List CardMoment × CardConfig → Bool}
    (h : (play (cardSys plainCards).prog (CardTurn.run plainCards) ms ⟨w₀, []⟩).any Q = true) :
    ∃ tr c, (cardSys plainCards).Trace w₀ tr c ∧ Q (tr, c) = true :=
  Sys.Trace.played_to (fun _ _ => trivial) CardTurn.exec ms h

end Agregator
