import Mathlib.Computability.RegularExpressions
import IioEmu.Xml.ElementTree

/-! # Document types

A document type declares the elements of a document, what may stand inside each of them and
which attributes they have. A valid document keeps to it everywhere. -/

namespace IioEmu.Xml

structure AttributeDeclaration where
  name : String
  required : Bool
  values : List String

structure ElementDeclaration where
  name : String
  content : Option (RegularExpression String)
  attributes : List AttributeDeclaration

structure DocumentType where
  root : String
  elements : List ElementDeclaration

/-- White space and comments, which may stand between elements. -/
def isIgnorable (element : XmlElement) : Bool :=
  isBlank element || element.name == "comment"

def childNames (node : XmlNode) : List String :=
  (node.children.filter fun child => !isIgnorable child.label).map
    fun child => child.label.name

def AttributeDeclaration.Allows (decl : AttributeDeclaration)
    (element : XmlElement) : Prop :=
  match element.property? decl.name with
  | none => decl.required = false
  | some value => decl.values = [] ∨ value ∈ decl.values

instance (decl : AttributeDeclaration) (element : XmlElement) :
    Decidable (decl.Allows element) := by
  unfold AttributeDeclaration.Allows
  split <;> infer_instance

/-- A model of nothing allows no white space either. -/
def ElementDeclaration.AllowsContent (decl : ElementDeclaration)
    (node : XmlNode) : Prop :=
  match decl.content with
  | none => node.children.isEmpty
  | some model => model.rmatch (childNames node)

instance (decl : ElementDeclaration) (node : XmlNode) :
    Decidable (decl.AllowsContent node) := by
  unfold ElementDeclaration.AllowsContent
  split <;> infer_instance

def ElementDeclaration.Allows (decl : ElementDeclaration) (node : XmlNode) : Prop :=
  node.label.name = decl.name ∧ decl.AllowsContent node ∧
    (∀ property ∈ node.label.properties, ∃ attr ∈ decl.attributes,
      attr.name = property.name) ∧
    ∀ attr ∈ decl.attributes, attr.Allows node.label

instance (decl : ElementDeclaration) (node : XmlNode) : Decidable (decl.Allows node) := by
  unfold ElementDeclaration.Allows
  infer_instance

def HasXmlAttributes (element : XmlElement) : Prop :=
  (element.properties.map XmlAttribute.name).Nodup ∧
    ∀ property ∈ element.properties, property.value.toList.all isChar = true

instance (element : XmlElement) : Decidable (HasXmlAttributes element) := by
  unfold HasXmlAttributes
  infer_instance

structure DocumentType.Valid (type : DocumentType) (tree : XmlNode) : Prop where
  root : tree.label.name = type.root
  attributes : ∀ label ∈ tree.labels, HasXmlAttributes label
  declared : ∀ node ∈ tree.subtrees, isIgnorable node.label = true ∨
    ∃ decl ∈ type.elements, decl.Allows node

instance (type : DocumentType) (tree : XmlNode) : Decidable (type.Valid tree) :=
  decidable_of_iff
    (tree.label.name = type.root ∧ (∀ label ∈ tree.labels, HasXmlAttributes label) ∧
      ∀ node ∈ tree.subtrees, isIgnorable node.label = true ∨
        ∃ decl ∈ type.elements, decl.Allows node)
    ⟨fun parts => ⟨parts.1, parts.2.1, parts.2.2⟩,
      fun valid => ⟨valid.root, valid.attributes, valid.declared⟩⟩

namespace DocumentType

section Valid

variable {type : DocumentType} {tree : XmlNode}

theorem Valid.nulFree (valid : type.Valid tree) {path : List Nat} {element : XmlElement}
    (located : tree.labelAt path = some element) {attrName text : String}
    (holds : element.property? attrName = some text) : NulFree text := by
  rw [XmlElement.property?, Option.map_eq_some_iff] at holds
  rcases holds with ⟨property, found, rfl⟩
  have characters := (valid.attributes element
    (LabelledTree.mem_labels_of_labelAt located)).2 property (List.mem_of_find?_eq_some found)
  intro member
  have isCharacter := List.all_eq_true.mp characters nul member
  exact absurd isCharacter (by decide)

theorem Valid.property?_isSome (valid : type.Valid tree) {node : XmlNode}
    (member : node ∈ tree.subtrees) (element : isIgnorable node.label = false)
    {attrName : String} (required : ∀ decl ∈ type.elements, decl.name = node.label.name →
      ∃ attr ∈ decl.attributes, attr.name = attrName ∧ attr.required = true) :
    (node.label.property? attrName).isSome := by
  rcases valid.declared node member with ignorable | ⟨decl, declared, named, _, _, allows⟩
  · rw [element] at ignorable
    cases ignorable
  · rcases required decl declared named.symm with ⟨attr, listed, rfl, always⟩
    have allowed := allows attr listed
    rw [AttributeDeclaration.Allows] at allowed
    cases present : node.label.property? attr.name with
    | none =>
        rw [present] at allowed
        rw [allowed] at always
        cases always
    | some value => rfl

end Valid

end DocumentType

end IioEmu.Xml
