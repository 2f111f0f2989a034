import Mathlib.Logic.Function.Basic
import IioEmu.Utils.AttrOpsXml
import IioEmu.Utils.AttributeLookup

/-! # The document as a keyed store

A key names an attribute of a device or of a channel. The lookups never look at
a property named `value`, and in a well-formed document they take different
keys to different nodes, so a write changes what its own key holds and nothing
else. -/

namespace IioEmu

section Store

variable [LibXml2]

namespace AttributeKey

def read (doc : Option XmlDoc) (buf : CharArray) (len : Nat) :
    AttributeKey → Outcome (Int × CharArray)
  | .device deviceId type attr => readDeviceAttr doc deviceId attr buf len type
  | .channel deviceId chn chOut attr =>
      readChannelAttr doc deviceId chn chOut attr buf len

def write (doc : Option XmlDoc) (buf : CharArray) (len : Nat) :
    AttributeKey → Outcome (Int × Option XmlDoc)
  | .device deviceId type attr => writeDevAttr doc deviceId attr buf len type
  | .channel deviceId chn chOut attr =>
      writeChannelAttr doc deviceId chn chOut attr buf len

end AttributeKey

/-- What a key holds: nothing where it is absent, otherwise the value of its
element, if the element has one. -/
def contents (doc : Option XmlDoc) (key : AttributeKey) :
    Outcome (Option (Option String)) :=
  key.lookup doc >>= fun found =>
    .ok (found.map fun nodeAttr => doc.bind fun document => document.getProp nodeAttr "value")

theorem contents_eq (doc : Option XmlDoc) (key : AttributeKey) :
    contents doc key = key.lookup doc >>= fun found =>
      .ok (found.map fun nodeAttr => doc.bind fun document => document.root.bind fun tree =>
        (tree.labelAt nodeAttr).bind fun element => element.property? "value") := by
  simp only [contents, XmlDoc.getProp, LibXml2.getProp_eq]
  rfl

theorem lookup_of_contents {doc : Option XmlDoc} {key : AttributeKey}
    {cell : Option String} (holds : contents doc key = .ok (some cell)) :
    ∃ nodeAttr, key.lookup doc = .ok (some nodeAttr) := by
  rw [contents, Outcome.bind_eq_ok] at holds
  rcases holds with ⟨found, resolved, equal⟩
  cases found with
  | none => cases equal
  | some nodeAttr => exact ⟨nodeAttr, resolved⟩

def setValue (doc : Option XmlDoc) (nodeAttr : NodePointer) (value : String) :
    Option XmlDoc :=
  doc.map fun document => document.setProp nodeAttr "value" value

/-! ## Reads and writes through the contents -/

namespace AttributeKey

theorem read_eq (doc : Option XmlDoc) (key : AttributeKey) (buf : CharArray) (len : Nat) :
    key.read doc buf len = contents doc key >>= fun cell =>
      match cell with
      | none => .ok (-ENOENT, buf)
      | some value => copyValue value buf len := by
  cases doc with
  | none =>
      rw [contents, lookup_none]
      cases key <;> rfl
  | some document =>
      cases key with
      | device deviceId type attr =>
          simp only [read, readDeviceAttr, contents, lookup]
          cases getDeviceAttr (some document) deviceId type attr <;> rfl
      | channel deviceId chn chOut attr =>
          simp only [read, readChannelAttr, contents, lookup]
          cases getChannelAttr (some document) chn deviceId attr chOut with
          | error fault => rfl
          | ok found => cases found <;> rfl

theorem read_noThrow (doc : Option XmlDoc) (key : AttributeKey) (buf : CharArray)
    (len : Nat) : Outcome.NoThrow (key.read doc buf len) := by
  rw [read_eq]
  apply Outcome.NoThrow.bind
  · exact (key.lookup_noThrow doc).bind fun _ => Outcome.noThrow_ok _
  · intro cell
    cases cell with
    | none => exact Outcome.noThrow_ok _
    | some value => exact copyValue_noThrow value buf len

theorem write_absent {doc : Option XmlDoc} {key : AttributeKey}
    (absent : key.lookup doc = .ok none) (buf : CharArray) (len : Nat) :
    key.write doc buf len = .ok (-ENOENT, doc) := by
  cases doc with
  | none => cases key <;> rfl
  | some document =>
      cases key with
      | device deviceId type attr =>
          simp only [lookup, Except.ok.injEq] at absent
          simp [write, writeDevAttr, absent]
      | channel deviceId chn chOut attr =>
          simp only [lookup] at absent
          simp [write, writeChannelAttr, absent]

theorem write_fault {doc : Option XmlDoc} {key : AttributeKey} {fault : Fault}
    (failed : key.lookup doc = .error fault) (buf : CharArray) (len : Nat) :
    key.write doc buf len = .error fault := by
  cases doc with
  | none =>
      rw [lookup_none] at failed
      cases failed
  | some document =>
      cases key with
      | device => cases failed
      | channel deviceId chn chOut attr =>
          simp only [lookup] at failed
          simp [write, writeChannelAttr, failed]

theorem write_found {doc : Option XmlDoc} {key : AttributeKey} {nodeAttr : NodePointer}
    (found : key.lookup doc = .ok (some nodeAttr)) {text : String} (free : NulFree text)
    (rest : CharArray) (len : Nat) :
    key.write doc (terminated text ++ rest) len =
      .ok ((min text.length len : Nat) + 1, setValue doc nodeAttr text) := by
  have value := cString_terminated_append free rest
  have counted := strnlen_terminated_append free rest len
  cases doc with
  | none =>
      rw [lookup_none] at found
      cases found
  | some document =>
      cases key with
      | device deviceId type attr =>
          simp only [lookup, Except.ok.injEq] at found
          simp [write, writeDevAttr, found, value, counted, setValue]
      | channel deviceId chn chOut attr =>
          simp only [lookup] at found
          simp [write, writeChannelAttr, found, value, counted, setValue]

end AttributeKey

/-! ## Writes and the lookups -/

theorem withoutValues_setProp (document : XmlDoc)
    (nodeAttr : NodePointer) (value : String) :
    (document.setProp nodeAttr "value" value).withoutValues = document.withoutValues := by
  simp only [XmlDoc.withoutValues, XmlDoc.setProp, Option.map_map, XmlDoc.mk.injEq]
  congr 1
  funext tree
  apply LabelledTree.map_modifyLabel
  intro element
  apply LibXml2.without_setProp

theorem lookup_setValue (doc : Option XmlDoc) (nodeAttr : NodePointer) (value : String)
    (key : AttributeKey) : key.lookup (setValue doc nodeAttr value) = key.lookup doc := by
  rw [← key.lookup_withoutValues, ← key.lookup_withoutValues doc]
  congr 1
  cases doc with
  | none => rfl
  | some document => simp [setValue, withoutValues_setProp]

theorem Separates.setValue {doc : Option XmlDoc} (separates : Separates doc)
    (nodeAttr : NodePointer) (value : String) :
    Separates (setValue doc nodeAttr value) := by
  intro key other nodePointer found otherFound
  rw [lookup_setValue] at found otherFound
  exact separates key other nodePointer found otherFound

/-! ## A write updates the contents at its key -/

theorem getProp_setProp_self {document : XmlDoc} {tree : XmlNode}
    (rooted : document.root = some tree) {nodeAttr : NodePointer} {element : XmlElement}
    (located : tree.labelAt nodeAttr = some element) (value : String) :
    (document.setProp nodeAttr "value" value).getProp nodeAttr "value" = some value := by
  simp [XmlDoc.getProp, XmlDoc.setProp, rooted,
    LabelledTree.labelAt_modifyLabel_self, located, LibXml2.getProp_eq,
    LibXml2.property?_setProp]

theorem getProp_setProp_of_ne {nodeAttr other : NodePointer}
    (different : other ≠ nodeAttr) (document : XmlDoc) (value : String) :
    (document.setProp nodeAttr "value" value).getProp other "value" =
      document.getProp other "value" := by
  simp only [XmlDoc.getProp, XmlDoc.setProp]
  cases document.root with
  | none => rfl
  | some tree =>
      simp [LabelledTree.labelAt_modifyLabel_of_ne _ different]

/-- Setting a property to the value it has changes nothing. -/
def KeepsSetValues : Prop :=
  ∀ (element : XmlElement) (attrName value : String),
    element.property? attrName = some value →
    LibXml2.setProp element attrName value = element

theorem setValue_eq_self_iff (keeps : KeepsSetValues) {doc : Option XmlDoc}
    {key : AttributeKey} {nodeAttr : NodePointer}
    (found : key.lookup doc = .ok (some nodeAttr)) (value : String) :
    setValue doc nodeAttr value = doc ↔ contents doc key = .ok (some (some value)) := by
  rcases located_of_lookup found with ⟨tree, rooted, located⟩
  rcases located.labelAt with ⟨element, atAttr⟩
  rcases Option.bind_eq_some_iff.mp rooted with ⟨document, opened, atRoot⟩
  subst opened
  have held : contents (some document) key = .ok (some (element.property? "value")) := by
    simp [contents, found, XmlDoc.getProp, atRoot, atAttr, LibXml2.getProp_eq]
  rw [held]
  simp only [setValue, Option.map_some, Option.some.injEq, Except.ok.injEq]
  constructor
  · intro unchanged
    have set := getProp_setProp_self atRoot atAttr value
    rw [unchanged] at set
    simpa [XmlDoc.getProp, atRoot, atAttr, LibXml2.getProp_eq] using set
  · intro holds
    cases document with
    | mk root =>
        simp only at atRoot
        subst atRoot
        simp only [XmlDoc.setProp, Option.map_some, XmlDoc.mk.injEq, Option.some.injEq]
        exact LabelledTree.modifyLabel_eq_self atAttr (keeps element "value" value holds)

theorem elim_setValue_eq_self_iff (keeps : KeepsSetValues) {doc : Option XmlDoc}
    {key : AttributeKey} {found : Option NodePointer}
    (located : key.lookup doc = .ok found) (text : String) :
    (found.elim doc fun nodeAttr => setValue doc nodeAttr text) = doc ↔
      ∀ cell, contents doc key = .ok cell → ∀ value, cell = some value →
      value = some text := by
  cases found with
  | none => simp [contents, located]
  | some nodeAttr =>
      rw [Option.elim_some, setValue_eq_self_iff keeps located]
      simp [contents, located]

/-- In the terms of the keyed store, setting a value is an update at one key. -/
theorem contents_setValue {doc : Option XmlDoc} (separates : Separates doc)
    {key : AttributeKey} {nodeAttr : NodePointer}
    (found : key.lookup doc = .ok (some nodeAttr)) (value : String) :
    contents (setValue doc nodeAttr value) =
      Function.update (contents doc) key (.ok (some (some value))) := by
  funext other
  rw [contents, lookup_setValue]
  by_cases same : other = key
  · subst same
    rcases located_of_lookup found with ⟨tree, rooted, located⟩
    rcases located.labelAt with ⟨element, atAttr⟩
    rcases Option.bind_eq_some_iff.mp rooted with ⟨document, opened, atRoot⟩
    subst opened
    rw [Function.update_self, found]
    simp [setValue, getProp_setProp_self atRoot atAttr]
  · rw [Function.update_of_ne same, contents]
    cases resolved : other.lookup doc with
    | error fault => rfl
    | ok place =>
        cases place with
        | none => rfl
        | some otherAttr =>
            have different : otherAttr ≠ nodeAttr := by
              intro equal
              subst equal
              exact same (separates other key otherAttr resolved found)
            cases doc with
            | none => rfl
            | some document =>
                simp [setValue, getProp_setProp_of_ne different]

theorem read_congr {doc next : Option XmlDoc} {key : AttributeKey}
    (same : contents next key = contents doc key) (buf : CharArray) (len : Nat) :
    key.read next buf len = key.read doc buf len := by
  rw [AttributeKey.read_eq, AttributeKey.read_eq, same]

theorem read_of_contents {doc : Option XmlDoc} {key : AttributeKey} {text : String}
    (holds : contents doc key = .ok (some (some text))) (free : NulFree text)
    {buf : CharArray} {len : Nat} (room : text.length < buf.length)
    (inside : text.length < len) :
    key.read doc buf len =
      .ok ((text.length : Int) + 1, terminated text ++ buf.drop (text.length + 1)) := by
  rw [AttributeKey.read_eq, holds, Outcome.ok_bind]
  exact copyValue_of_lt free room inside

/-! ## The store -/

/-- A written text is read back at its key, every other key and every lookup
stays as it was, and a key that is absent leaves the document alone. -/
theorem keyed_store {doc : Option XmlDoc} (wellFormed : WellFormed doc)
    (key : AttributeKey) {text : String} (free : NulFree text)
    (rest : CharArray) {len : Nat} (inside : text.length < len) :
    (∀ nodeAttr, key.lookup doc = .ok (some nodeAttr) →
      ∃ next, key.write doc (terminated text ++ rest) len =
          .ok ((text.length : Int) + 1, next) ∧
        (∀ (buf : CharArray) size, text.length < buf.length → text.length < size →
          ∃ stored, key.read next buf size = .ok ((text.length : Int) + 1, stored) ∧
            cString stored = .ok text) ∧
        (∀ other ≠ key, ∀ buf size, other.read next buf size = other.read doc buf size) ∧
        (∀ other : AttributeKey, other.lookup next = other.lookup doc)) ∧
    (key.lookup doc = .ok none →
      key.write doc (terminated text ++ rest) len = .ok (-ENOENT, doc)) := by
  constructor
  · intro nodeAttr found
    have updated := contents_setValue (separates_of_wellFormed wellFormed) found text
    have written := AttributeKey.write_found found free rest len
    rw [Nat.min_eq_left (Nat.le_of_lt inside)] at written
    refine ⟨setValue doc nodeAttr text, written, ?_, ?_,
      lookup_setValue doc nodeAttr text⟩
    · intro buf size room fits
      have holds : contents (setValue doc nodeAttr text) key =
          .ok (some (some text)) := by
        rw [updated, Function.update_self]
      exact ⟨_, read_of_contents holds free room fits, cString_terminated_append free _⟩
    · intro other different buf size
      apply read_congr
      rw [updated, Function.update_of_ne different]
  · intro absent
    exact AttributeKey.write_absent absent _ len

end Store

section Examples

open scoped Reference

theorem keepsSetValues_reference : KeepsSetValues := by
  intro element attrName value holds
  have kept : ∀ properties : List XmlAttribute,
      (properties.find? fun property => property.name == attrName).map XmlAttribute.value =
        some value → setFirstProperty attrName value properties = properties := by
    intro properties
    induction properties with
    | nil => simp
    | cons property rest induction =>
        intro found
        by_cases same : property.name = attrName
        · simp only [List.find?_cons, same, beq_self_eq_true, Option.map_some,
            Option.some.injEq] at found
          rw [setFirstProperty, if_pos same, ← found, ← same]
        · simp only [List.find?_cons, beq_eq_false_iff_ne.mpr same] at found
          simp [setFirstProperty, same, induction found]
  exact congrArg (XmlElement.mk element.name · element.content) (kept _ holds)

def supplyDocument : XmlDoc where
  root := some (.node ⟨"context", [], ""⟩ [
    .node ⟨"device", [⟨"id", "iio:device3"⟩], ""⟩ [
      .node ⟨"channel", [⟨"id", "voltage0"⟩, ⟨"type", "output"⟩], ""⟩ [
        .node ⟨"attribute", [⟨"name", "raw"⟩, ⟨"value", "0.000000"⟩], ""⟩ []],
      .node ⟨"attribute", [⟨"name", "raw"⟩, ⟨"value", "1"⟩], ""⟩ []]])

theorem channel_raw_is_stored :
    ∃ next, (AttributeKey.channel "iio:device3" "voltage0" true "raw").write
        (some supplyDocument) (terminated "100" ++ []) 4 = .ok ((3 : Nat) + 1, next) ∧
      (∀ (buf : CharArray) size, 3 < buf.length → 3 < size →
        ∃ stored, (AttributeKey.channel "iio:device3" "voltage0" true "raw").read next buf
            size = .ok ((3 : Nat) + 1, stored) ∧ cString stored = .ok "100") ∧
      (∀ buf size, (AttributeKey.device "iio:device3" .device "raw").read next buf size =
        (AttributeKey.device "iio:device3" .device "raw").read
          (some supplyDocument) buf size) := by
  have stored := (keyed_store (show WellFormed (some supplyDocument) by decide +kernel)
    (.channel "iio:device3" "voltage0" true "raw") (show NulFree "100" by decide) []
    (show "100".length < 4 by decide)).1 [0, 0, 0] (by decide +kernel)
  rcases stored with ⟨next, written, readBack, others, _⟩
  exact ⟨next, written, readBack, others _ (by decide)⟩

end Examples

end IioEmu
