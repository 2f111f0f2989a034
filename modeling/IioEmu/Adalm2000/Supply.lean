import Mathlib.Data.List.Induction
import IioEmu.Foundation.Numerals

/-! # One power supply

A supply keeps its raw attribute, its powerdown attribute, the text of the value
computed last and its read-back attribute. Every write refreshes the read-back
from the other three. -/

namespace IioEmu

inductive SupplyWrite
  | raw (integer : DecimalInteger)
  | powerdown (down : Bool)

def powerdownText (down : Bool) : String := if down then "1" else "0"

theorem powerdownText_eq_one_iff (down : Bool) :
    powerdownText down = "1" ↔ down = true := by
  cases down <;> decide

namespace SupplyWrite

def attr : SupplyWrite → String
  | raw _ => "raw"
  | powerdown _ => "powerdown"

def text : SupplyWrite → String
  | raw integer => integer.text
  | powerdown down => powerdownText down

theorem startsWith_attr_raw (integer : DecimalInteger) :
    startsWith (raw integer).attr "raw" = true :=
  show startsWith "raw" "raw" = true by decide

theorem startsWith_attr_powerdown (down : Bool) :
    startsWith (powerdown down).attr "raw" = false :=
  show startsWith "powerdown" "raw" = false by decide

theorem nulFree_text (entry : SupplyWrite) : NulFree entry.text := by
  cases entry with
  | raw integer => exact integer.nulFree_text
  | powerdown down => cases down <;> decide

/-- The value written, if any, is one `std::stoi` returns. -/
def Fits (entry : SupplyWrite) : Prop :=
  ∀ integer, entry = raw integer → IsInt integer.value

end SupplyWrite

structure Supply where
  raw : String
  down : Bool
  current : String
  readBack : String

namespace Supply

variable (convert : Int → Int)

def stored (supply : Supply) : SupplyWrite → Supply
  | .raw integer =>
      { supply with
        raw := integer.text
        current := toString (convert integer.value) }
  | .powerdown down => { supply with down := down }

def refresh (supply : Supply) : Supply :=
  { supply with readBack := if supply.down then "0" else supply.current }

def write (supply : Supply) (write : SupplyWrite) : Supply :=
  (supply.stored convert write).refresh

def Cached (supply : Supply) : Prop :=
  ∃ value, leadingInteger supply.raw = some value ∧
    supply.current = toString (convert value)

structure Agrees (supply : Supply) : Prop where
  powerdown : supply.down = true → supply.readBack = "0"
  powered : supply.down = false → ∃ value, leadingInteger supply.raw = some value ∧
    supply.readBack = toString (convert value)

theorem cached_raw (supply : Supply) (integer : DecimalInteger) :
    (supply.write convert (.raw integer)).Cached convert :=
  ⟨integer.value, integer.leadingInteger_text, rfl⟩

theorem cached_powerdown (supply : Supply) (down : Bool) :
    (supply.write convert (.powerdown down)).Cached convert ↔ supply.Cached convert :=
  Iff.rfl

theorem cached_foldl {writes : List SupplyWrite} {integer : DecimalInteger}
    (written : .raw integer ∈ writes) (start : Supply) :
    (writes.foldl (write convert) start).Cached convert := by
  induction writes using List.reverseRecOn with
  | nil => simp at written
  | append_singleton earlier last induction =>
      rw [List.foldl_append, List.foldl_cons, List.foldl_nil]
      cases last with
      | raw other => exact cached_raw convert _ other
      | powerdown down =>
          rw [cached_powerdown]
          apply induction
          simpa using written

theorem current_foldl {writes : List SupplyWrite}
    (unwritten : ∀ integer, .raw integer ∉ writes) (start : Supply) :
    (writes.foldl (write convert) start).current = start.current := by
  induction writes generalizing start with
  | nil => rfl
  | cons first writes induction =>
      rw [List.foldl_cons,
        induction (fun integer member => unwritten integer (by simp [member]))]
      cases first with
      | raw integer => exact absurd (List.mem_cons_self) (unwritten integer)
      | powerdown down => rfl

/-- After a write the read-back agrees unless it powers up a supply whose raw
value was never converted. -/
theorem agrees_write {supply : Supply} {entry : SupplyWrite}
    (cached : entry = .powerdown false → supply.Cached convert) :
    (supply.write convert entry).Agrees convert := by
  cases entry with
  | raw integer =>
      constructor
      · intro down
        exact if_pos down
      · intro powered
        refine ⟨integer.value, integer.leadingInteger_text, ?_⟩
        exact if_neg (ne_true_of_eq_false powered)
  | powerdown down =>
      cases down with
      | true =>
          constructor
          · intro _
            rfl
          · intro powered
            cases powered
      | false =>
          constructor
          · intro down
            cases down
          · intro _
            exact cached rfl

theorem not_agrees_powerUp {supply : Supply} (empty : supply.current = "") :
    ¬ (supply.write convert (.powerdown false)).Agrees convert := by
  intro agrees
  rcases agrees.powered rfl with ⟨value, _, readBack⟩
  apply toString_ne_empty (convert value)
  rw [← readBack, ← empty]
  rfl

end Supply

end IioEmu
