import IioEmu.Utils.AttributeStore

/-! # Reads and the caller's buffer

The three reads copy a value in the same way: up to the size of the buffer, and one character
more. -/

namespace IioEmu

section Reads

variable [LibXml2]

inductive StoredAttribute
  | keyed (key : AttributeKey)
  | context (attr : String)

namespace StoredAttribute

def read (doc : Option XmlDoc) (buf : CharArray) (len : Nat) :
    StoredAttribute → Outcome (Int × CharArray)
  | .keyed key => key.read doc buf len
  | .context attr => readContextAttr doc attr buf len

def Holds (doc : Option XmlDoc) (text : String) : StoredAttribute → Prop
  | .keyed key => contents doc key = .ok (some (some text))
  | .context attr => ∃ document tree, doc = some document ∧ document.root = some tree ∧
      contextValue tree attr = some text

theorem read_eq_copyValue {doc : Option XmlDoc} {text : String} {attr : StoredAttribute}
    (holds : attr.Holds doc text) (buf : CharArray) (len : Nat) :
    attr.read doc buf len = copyValue (some text) buf len := by
  cases attr with
  | keyed key =>
      rw [Holds] at holds
      rw [read, AttributeKey.read_eq, holds]
      rfl
  | context name =>
      rcases holds with ⟨document, tree, rfl, rooted, value⟩
      exact readContextAttr_eq_copyValue rooted value buf len

end StoredAttribute

omit [LibXml2] in
theorem copyValue_eq_ok_iff {text : String} (free : NulFree text) {buf stored : CharArray}
    {ret : Int} :
    copyValue (some text) buf buf.length = .ok (ret, stored) ↔ text.length < buf.length ∧
      ret = text.length + 1 ∧ stored = terminated text ++ buf.drop (text.length + 1) := by
  by_cases room : text.length < buf.length
  · rw [copyValue_of_lt free room room]
    simp [room, eq_comm]
  · rw [copyValue_of_le free (Nat.le_of_not_lt room) (Nat.le_refl _)]
    simp [room]

/-- The call returns, so that it has written to its buffer only, and leaves a terminated
beginning of the value there. -/
def StaysInside (call : Outcome (Int × CharArray)) (text : String) (size : Nat) : Prop :=
  ∃ count stored, call = .ok (count, stored) ∧ stored.length = size ∧
    1 ≤ count ∧ count ≤ size ∧
    ∃ shown : String, shown.toList <+: text.toList ∧ terminated shown <+: stored

/-- A read stays inside its buffer exactly when the terminator of the value has room there. -/
theorem read_stays_inside_iff {doc : Option XmlDoc} {text : String}
    {attr : StoredAttribute} (holds : attr.Holds doc text)
    (free : NulFree text) (buf : CharArray) :
    StaysInside (attr.read doc buf buf.length) text buf.length ↔
      text.length < buf.length := by
  rw [StoredAttribute.read_eq_copyValue holds]
  constructor
  · rintro ⟨count, stored, returned, _⟩
    exact ((copyValue_eq_ok_iff free).mp returned).1
  · intro room
    refine ⟨_, _, copyValue_of_lt free room room, ?_, ?_, ?_, text, List.prefix_rfl,
      List.prefix_append _ _⟩
    · rw [List.length_append, length_terminated, List.length_drop]
      omega
    · omega
    · omega

end Reads

section Examples

open scoped Reference

def localContext : XmlDoc where
  root := some (.node ⟨"context", [], ""⟩
    [.node ⟨"context-attribute", [⟨"name", "uri"⟩, ⟨"value", "local"⟩], ""⟩ []])

theorem holds_uri : (StoredAttribute.context "uri").Holds (some localContext) "local" :=
  ⟨_, _, rfl, rfl, by decide⟩

theorem uri_fits_six_bytes :
    StaysInside ((StoredAttribute.context "uri").read (some localContext) (uninitialised 6) 6)
      "local" 6 :=
  (read_stays_inside_iff holds_uri (by decide) (uninitialised 6)).mpr (by decide)

/-- The terminator is written behind a buffer of the length of the value. -/
theorem uri_overflows_five_bytes :
    (StoredAttribute.context "uri").Holds (some localContext) "local" ∧
      ¬ StaysInside ((StoredAttribute.context "uri").read (some localContext)
        (uninitialised 5) 5)
        "local" 5 := by
  refine ⟨holds_uri, ?_⟩
  rintro ⟨count, stored, returned, _⟩
  have overflows : (StoredAttribute.context "uri").read (some localContext)
      (uninitialised 5) 5 = .error .outOfBounds := by decide
  rw [overflows] at returned
  cases returned

end Examples

end IioEmu
