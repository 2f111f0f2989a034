import IioEmu.Utils.AttributeReads
import IioEmu.Xml.DocumentType

/-! # Reads of absent attributes and values

A valid document may leave out the value of an attribute of a device or of a channel. The
reads look for the attribute and not for its value, and the one of the context looks for
neither. -/

namespace IioEmu

/-! ## The documented type of a context -/

section ContextType

open Xml RegularExpression

def required (name : String) : AttributeDeclaration := ⟨name, true, []⟩

def implied (name : String) : AttributeDeclaration := ⟨name, false, []⟩

def contextType : DocumentType where
  root := "context"
  elements :=
    [⟨"context", some (star (char "device" + char "context-attribute")),
      [required "name", implied "description"]⟩,
     ⟨"context-attribute", none, [required "name", required "value"]⟩,
     ⟨"device", some (star (char "channel" + char "attribute" + char "debug-attribute" +
        char "buffer-attribute")), [required "id", implied "name"]⟩,
     ⟨"channel", some ((1 + char "scan-element") * star (char "attribute")),
      [required "id", ⟨"type", true, ["input", "output"]⟩, implied "name"]⟩,
     ⟨"attribute", none, [required "name", implied "filename", implied "value"]⟩,
     ⟨"scan-element", none, [required "index", required "format", implied "scale"]⟩,
     ⟨"debug-attribute", none, [required "name", implied "value"]⟩,
     ⟨"buffer-attribute", none, [required "name", implied "value"]⟩]

end ContextType

section Reads

variable [LibXml2]

/-- The call returns a length, or an error that leaves the buffer as it was. -/
def Answers (call : Outcome (Int × CharArray)) (buf : CharArray) : Prop :=
  ∃ ret stored, call = .ok (ret, stored) ∧ (0 ≤ ret ∨ stored = buf)

def valueAt (tree : XmlNode) (nodeAttr : NodePointer) : Option String :=
  (tree.labelAt nodeAttr).bind fun element => element.property? "value"

namespace StoredAttribute

def lookup (doc : Option XmlDoc) : StoredAttribute → Outcome (Option NodePointer)
  | .keyed key => key.lookup doc
  | .context attr =>
      .ok ((doc >>= XmlDoc.root) >>= fun tree =>
        getNode tree [] "context-attribute" "name" attr)

def isKeyed : StoredAttribute → Bool
  | .keyed _ => true
  | .context _ => false

variable {tree : XmlNode} {attr : StoredAttribute} {found : Option NodePointer}

def readFound (tree : XmlNode) (attr : StoredAttribute) (buf : CharArray) (len : Nat) :
    Option NodePointer → Outcome (Int × CharArray)
  | none => if attr.isKeyed then .ok (-ENOENT, buf) else .error .nullPointer
  | some nodeAttr => copyValue (valueAt tree nodeAttr) buf len

theorem read_eq_readFound (resolves : attr.lookup (some ⟨some tree⟩) = .ok found)
    (buf : CharArray) (len : Nat) :
    attr.read (some ⟨some tree⟩) buf len = attr.readFound tree buf len found := by
  cases attr with
  | keyed key =>
      rw [lookup] at resolves
      rw [read, AttributeKey.read_eq, contents_eq, resolves]
      cases found <;> rfl
  | context name =>
      have searched : getNode tree [] "context-attribute" "name" name = found :=
        Except.ok.inj resolves
      simp only [read, readContextAttr, XmlDoc.getProp, LibXml2.getProp_eq, searched]
      cases found <;> rfl

/-- The attribute is absent from a device or a channel, or it is there with a value that fits.
An attribute of the context has to be there. -/
def Answerable (tree : XmlNode) (attr : StoredAttribute) (size len : Nat) :
    Option NodePointer → Prop
  | none => attr.isKeyed = true
  | some nodeAttr => (attr.isKeyed = true → (valueAt tree nodeAttr).isSome) ∧
      ∀ text ∈ valueAt tree nodeAttr, min text.length len < size

end StoredAttribute

omit [LibXml2] in
theorem copyValue_answers_iff {value : Option String}
    (free : ∀ text ∈ value, NulFree text) (buf : CharArray) (len : Nat) :
    Answers (copyValue value buf len) buf ↔
      ∃ text ∈ value, min text.length len < buf.length := by
  cases value with
  | none =>
      constructor
      · rintro ⟨_, _, returned, _⟩
        cases returned
      · rintro ⟨_, absent, _⟩
        cases absent
  | some text =>
      rw [Answers, copyValue_eq (free text rfl)]
      split
      case isTrue room =>
        exact ⟨fun _ => ⟨text, rfl, room⟩, fun _ => ⟨_, _, rfl, Or.inl (by omega)⟩⟩
      case isFalse small =>
        constructor
        · rintro ⟨_, _, returned, _⟩
          cases returned
        · rintro ⟨other, same, room⟩
          cases same
          exact absurd room small

omit [LibXml2] in
theorem contextValue_isSome {tree : XmlNode}
    (valid : contextType.Valid tree) {attr : String} {nodeAttr : NodePointer}
    (found : getNode tree [] "context-attribute" "name" attr = some nodeAttr) :
    (valueAt tree nodeAttr).isSome := by
  rcases getNode_eq_some found with ⟨position, element, rfl, located, named, _⟩
  rw [LabelledTree.labelAt, Option.map_eq_some_iff] at located
  rcases located with ⟨node, reached, rfl⟩
  have child : node ∈ tree.children := by
    simp only [List.nil_append, LabelledTree.descend_cons,
      LabelledTree.descend_nil] at reached
    rcases Option.bind_eq_some_iff.mp reached with ⟨other, chosen, same⟩
    cases same
    exact List.mem_of_getElem? chosen
  have isElement : Xml.isIgnorable node.label = false := by
    simp [Xml.isIgnorable, Xml.isBlank, named]
  rw [valueAt, LabelledTree.labelAt, reached]
  apply valid.property?_isSome (LabelledTree.mem_subtrees_of_mem_children child) isElement
  rw [named]
  decide

/-- On a valid document a read answers exactly when what its lookup finds is answerable. -/
theorem read_answers_iff {tree : XmlNode} (valid : contextType.Valid tree)
    {attr : StoredAttribute} {found : Option NodePointer}
    (resolves : attr.lookup (some ⟨some tree⟩) = .ok found)
    (buf : CharArray) (len : Nat) :
    Answers (attr.read (some ⟨some tree⟩) buf len) buf ↔
      attr.Answerable tree buf.length len found := by
  rw [StoredAttribute.read_eq_readFound resolves]
  cases found with
  | none =>
      rw [StoredAttribute.readFound, StoredAttribute.Answerable]
      cases attr with
      | keyed key => exact ⟨fun _ => rfl, fun _ => ⟨_, _, rfl, Or.inr rfl⟩⟩
      | context name =>
          constructor
          · rintro ⟨_, _, returned, _⟩
            cases returned
          · intro impossible
            cases impossible
  | some nodeAttr =>
      have free : ∀ text ∈ valueAt tree nodeAttr, NulFree text := by
        intro text holds
        rcases Option.bind_eq_some_iff.mp holds with ⟨element, located, value⟩
        exact valid.nulFree located value
      have present : attr.isKeyed = false → (valueAt tree nodeAttr).isSome := by
        intro notKeyed
        cases attr with
        | keyed key => cases notKeyed
        | context name => exact contextValue_isSome valid (Except.ok.inj resolves)
      rw [StoredAttribute.readFound, StoredAttribute.Answerable,
        copyValue_answers_iff free]
      constructor
      · rintro ⟨text, value, room⟩
        rw [Option.mem_def] at value
        rw [value]
        exact ⟨fun _ => rfl, fun other same => Option.some.inj same ▸ room⟩
      · rintro ⟨needed, room⟩
        have isSome : (valueAt tree nodeAttr).isSome := by
          cases keyed : attr.isKeyed with
          | true => exact needed keyed
          | false => exact present keyed
        rcases Option.isSome_iff_exists.mp isSome with ⟨text, value⟩
        exact ⟨text, value, room text value⟩

end Reads

section Examples

open scoped Reference

def sparseContext : XmlNode :=
  .node ⟨"context", [⟨"name", "local"⟩], ""⟩
    [.node ⟨"device", [⟨"id", "iio:device0"⟩], ""⟩
      [.node ⟨"attribute", [⟨"name", "rate"⟩, ⟨"value", "750"⟩], ""⟩ [],
       .node ⟨"attribute", [⟨"name", "mode"⟩], ""⟩ []]]

theorem valid_sparseContext : contextType.Valid sparseContext := by
  decide +kernel

def attributeOf (attr : String) : StoredAttribute :=
  .keyed (.device "iio:device0" .device attr)

theorem rate_is_answered :
    Answers ((attributeOf "rate").read (some ⟨some sparseContext⟩) (uninitialised 8) 8)
      (uninitialised 8) := by
  have found : (attributeOf "rate").lookup (some ⟨some sparseContext⟩) =
      .ok (some [0, 0]) := by
    decide
  exact (read_answers_iff valid_sparseContext found _ _).mpr ⟨by decide, by decide⟩

/-- The value is dereferenced without a test. -/
theorem mode_is_not_answered :
    contextType.Valid sparseContext ∧
      (attributeOf "mode").read (some ⟨some sparseContext⟩) (uninitialised 8) 8 =
        .error .nullPointer ∧
      ¬ Answers ((attributeOf "mode").read (some ⟨some sparseContext⟩) (uninitialised 8) 8)
        (uninitialised 8) := by
  have failed :
      (attributeOf "mode").read (some ⟨some sparseContext⟩) (uninitialised 8) 8 =
      .error .nullPointer := by decide
  refine ⟨valid_sparseContext, failed, ?_⟩
  rintro ⟨_, _, returned, _⟩
  rw [failed] at returned
  cases returned

end Examples

end IioEmu
