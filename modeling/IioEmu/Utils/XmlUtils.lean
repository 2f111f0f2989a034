import IioEmu.Foundation.LabelledTree
import IioEmu.Foundation.Memory

/-! # Lookups in the context document

A document is a tree of libxml2 nodes; a `xmlNode*` into it is the path of the
node. Each attribute node holds its value in one text child. -/

namespace IioEmu

structure XmlAttribute where
  name : String
  value : String
  deriving DecidableEq

/-- One libxml2 node without its children. Text nodes have the name `text`,
no properties, and their characters as content. -/
structure XmlElement where
  name : String
  properties : List XmlAttribute
  content : String
  deriving DecidableEq

abbrev XmlNode := LabelledTree XmlElement

structure XmlDoc where
  root : Option XmlNode

abbrev NodePointer := List Nat

namespace XmlElement

def hasProperty (element : XmlElement) (attrName attrValue : String) : Bool :=
  element.properties.any fun property =>
    property.name == attrName && property.value == attrValue

def mismatches (element : XmlElement) (wanted : List (String × String)) : Bool :=
  wanted.any fun pair =>
    element.properties.any fun property =>
      property.name == pair.1 && property.value != pair.2

def property? (element : XmlElement) (attrName : String) : Option String :=
  (element.properties.find? fun property => property.name == attrName).map
    XmlAttribute.value

def without (attrName : String) (element : XmlElement) : XmlElement :=
  { element with properties := element.properties.filter (·.name != attrName) }

end XmlElement

/-- The two property functions of libxml2 the program calls, with what it
relies on: they read and set one named property. -/
class LibXml2 where
  getProp : XmlElement → String → Option String
  setProp : XmlElement → String → String → XmlElement
  getProp_eq : ∀ element attrName, getProp element attrName = element.property? attrName
  property?_setProp : ∀ element attrName value,
    (setProp element attrName value).property? attrName = some value
  without_setProp : ∀ element attrName value,
    (setProp element attrName value).without attrName = element.without attrName

def setFirstProperty (attrName value : String) : List XmlAttribute → List XmlAttribute
  | [] => [⟨attrName, value⟩]
  | property :: rest =>
      if property.name = attrName then ⟨attrName, value⟩ :: rest
      else property :: setFirstProperty attrName value rest

@[reducible] def listLibXml2 : LibXml2 where
  getProp := XmlElement.property?
  setProp element attrName value :=
    { element with properties := setFirstProperty attrName value element.properties }
  getProp_eq _ _ := rfl
  property?_setProp element attrName value := by
    simp only [XmlElement.property?]
    induction element.properties with
    | nil => simp [setFirstProperty]
    | cons property rest induction =>
        by_cases same : property.name = attrName
        · simp [setFirstProperty, same]
        · simpa [setFirstProperty, same] using induction
  without_setProp element attrName value := by
    simp only [XmlElement.without, XmlElement.mk.injEq, true_and, and_true]
    induction element.properties with
    | nil => simp [setFirstProperty]
    | cons property rest induction =>
        by_cases same : property.name = attrName
        · simp [setFirstProperty, same]
        · simpa [setFirstProperty, same] using induction

namespace Reference

scoped instance : LibXml2 := listLibXml2

end Reference

/-! ## The search routines -/

def getNode (tree : XmlNode) (root : NodePointer)
    (nodeName attrName attrValue : String) : Option NodePointer := do
  let parent ← tree.descend root
  let position ← parent.children.findIdx? fun node =>
    node.label.name == nodeName && node.label.hasProperty attrName attrValue
  return root ++ [position]

def getNodeByName (tree : XmlNode) (root : NodePointer) (nodeName : String) :
    Option NodePointer := do
  let parent ← tree.descend root
  let position ← parent.children.findIdx? fun node => node.label.name == nodeName
  return root ++ [position]

/-- The search from the label `search_node` on: the node there is dereferenced
without a test, and a mismatch jumps back to the label with the next sibling. -/
def searchNode (nodeName : String) (wanted : List (String × String)) :
    List XmlNode → Nat → Outcome (Option Nat)
  | [], _ => .error .nullPointer
  | node :: next, position =>
      if node.label.name = nodeName then
        if node.label.mismatches wanted then
          searchNode nodeName wanted next (position + 1)
        else
          .ok (some position)
      else if next.isEmpty then
        .ok none
      else
        searchNode nodeName wanted next (position + 1)

def getNodeNAttrs (tree : XmlNode) (root : NodePointer) (nodeName : String)
    (wanted : List (String × String)) : Outcome (Option NodePointer) :=
  match tree.descend root with
  | none => .error .nullPointer
  | some parent =>
      if parent.children.isEmpty then .ok none
      else
        searchNode nodeName wanted parent.children 0 >>= fun found =>
          .ok (found.map fun position => root ++ [position])

inductive IioAttrType
  | device
  | debug
  | buffer
  deriving DecidableEq, Repr

def IioAttrType.nodeName : IioAttrType → String
  | .device => "attribute"
  | .debug => "debug-attribute"
  | .buffer => "buffer-attribute"

def getDeviceAttr (doc : Option XmlDoc) (dev : String) (type : IioAttrType)
    (attr : String) : Option NodePointer := do
  let doc ← doc
  let tree ← doc.root
  let nodeDevice ← getNode tree [] "device" "id" dev
  getNode tree nodeDevice type.nodeName "name" attr

def directionName (chOut : Bool) : String := if chOut then "output" else "input"

def getChannelAttr (doc : Option XmlDoc) (chn dev attr : String) (chOut : Bool) :
    Outcome (Option NodePointer) :=
  match doc >>= XmlDoc.root with
  | none => .ok none
  | some tree =>
      match getNode tree [] "device" "id" dev with
      | none => .ok none
      | some nodeDevice =>
          getNodeNAttrs tree nodeDevice "channel"
            [("id", chn), ("type", directionName chOut)] >>= fun found =>
          match found with
          | none => .ok none
          | some nodeChannel => .ok (getNode tree nodeChannel "attribute" "name" attr)

end IioEmu
