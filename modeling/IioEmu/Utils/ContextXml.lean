import IioEmu.Foundation.Execution
import IioEmu.Utils.AttributeStore
import IioEmu.Utils.ChannelLookup
import IioEmu.Utils.SerialisedXml

/-! # The description a context advertises

The description is the serialised document without its values. A context computes it once,
when it is constructed, and hands out that text from then on. Every node a write can reach is
one whose value the description leaves out, so no write makes the text stale. -/

namespace IioEmu

/-! ## Removing the values -/

namespace XmlElement

/-- Only the first property of the name is removed. -/
def removeValue (element : XmlElement) : XmlElement :=
  if element.name = "context-attribute" then element
  else { element with properties := element.properties.eraseP (·.name == "value") }

def published (element : XmlElement) : XmlElement :=
  if element.name = "context-attribute" then element else element.without "value"

def NamesDistinct (element : XmlElement) : Prop :=
  (element.properties.map XmlAttribute.name).Nodup

instance (element : XmlElement) : Decidable element.NamesDistinct :=
  inferInstanceAs (Decidable (element.properties.map XmlAttribute.name).Nodup)

theorem eraseP_eq_filter {attrName : String} {properties : List XmlAttribute}
    (distinct : (properties.map XmlAttribute.name).Nodup) :
    properties.eraseP (·.name == attrName) = properties.filter (·.name != attrName) := by
  induction properties with
  | nil => rfl
  | cons property properties induction =>
      rw [List.map_cons, List.nodup_cons] at distinct
      by_cases named : property.name = attrName
      · have others : properties.filter (·.name != attrName) = properties := by
          rw [List.filter_eq_self]
          intro other member
          rw [bne_iff_ne]
          intro same
          apply distinct.1
          rw [named, ← same]
          exact List.mem_map_of_mem member
        simp [named, others]
      · simp [named, induction distinct.2]

theorem removeValue_eq_published {element : XmlElement}
    (distinct : element.NamesDistinct) :
    element.removeValue = element.published := by
  rw [removeValue, published, without, eraseP_eq_filter distinct]

end XmlElement

mutual

def removeValueAttribute : XmlNode → XmlNode
  | .node label children => .node label.removeValue (removeValueAttributes children)

def removeValueAttributes : List XmlNode → List XmlNode
  | [] => []
  | node :: next => removeValueAttribute node :: removeValueAttributes next

end

mutual

theorem removeValueAttribute_eq_map (tree : XmlNode) :
    removeValueAttribute tree = tree.map XmlElement.removeValue := by
  cases tree with
  | node label children =>
      rw [removeValueAttribute, LabelledTree.map, removeValueAttributes_eq_mapForest]

theorem removeValueAttributes_eq_mapForest (nodes : List XmlNode) :
    removeValueAttributes nodes =
    LabelledTree.mapForest XmlElement.removeValue nodes := by
  cases nodes with
  | nil => rfl
  | cons node next =>
      rw [removeValueAttributes, LabelledTree.mapForest, removeValueAttribute_eq_map,
        removeValueAttributes_eq_mapForest]

end

theorem removeValueAttribute_eq_published {tree : XmlNode}
    (distinct : ∀ element ∈ tree.labels, element.NamesDistinct) :
    removeValueAttribute tree = tree.map XmlElement.published := by
  rw [removeValueAttribute_eq_map]
  apply LabelledTree.map_congr
  intro element member
  exact XmlElement.removeValue_eq_published (distinct element member)

/-! ## The text -/

def uniqueSpaces : List Char → List Char
  | first :: second :: rest =>
      if first = ' ' ∧ second = ' ' then uniqueSpaces (second :: rest)
      else first :: uniqueSpaces (second :: rest)
  | text => text

/-- Line feeds go, and of a run of spaces one stays. -/
def cleanUp (text : List Char) : List Char := uniqueSpaces (text.filter (· != '\n'))

section Text

variable [LibXml2Text]

def getXml (doc : Option XmlDoc) : Int × Option String :=
  match doc with
  | none => (-ENOENT, none)
  | some document =>
      let tmpDoc := LibXml2Text.dumpMemory document >>= LibXml2Text.readMemory
      let stripped := tmpDoc.map fun tmp => XmlDoc.mk (tmp.root.map removeValueAttribute)
      match stripped >>= LibXml2Text.dumpMemory with
      | none => (-ENOENT, none)
      | some xml =>
          let str := String.ofList (cleanUp xml.toList)
          (str.length, some str)

/-- Where parsing gives back the document, its text is the one of the stripped tree. -/
theorem getXml_eq {document : XmlDoc} (roundTrips : RoundTrips document) :
    getXml (some document) =
      match LibXml2Text.dumpMemory ⟨document.root.map removeValueAttribute⟩ with
      | none => (-ENOENT, none)
      | some xml =>
          let str := String.ofList (cleanUp xml.toList)
          (str.length, some str) := by
  simp only [getXml]
  rw [roundTrips]
  rfl

end Text

/-! ## The context -/

structure XmlContext where
  doc : Option XmlDoc
  ctxXml : Option String
  xmlSize : Int

structure AttributeWrite where
  key : AttributeKey
  text : String
  free : NulFree text
  rest : CharArray
  len : Nat

def AttributeWrite.buf (write : AttributeWrite) : CharArray :=
  terminated write.text ++ write.rest

namespace XmlContext

section Calls

variable [LibXml2] [LibXml2Text]

def construct (doc : Option XmlDoc) : XmlContext where
  doc := doc
  ctxXml := (IioEmu.getXml doc).2
  xmlSize := (IioEmu.getXml doc).1

omit [LibXml2] [LibXml2Text] in
/-- `outxml` is null or a pointer to store the text in. -/
def getXml (context : XmlContext) (outxml : Bool) : Int × Option String :=
  if outxml then (context.xmlSize, context.ctxXml) else (-1, none)

def writeAttr (context : XmlContext) (deviceId attr : String)
    (buf : CharArray) (len : Nat) (type : IioAttrType) : Outcome (Int × XmlContext) :=
  writeDevAttr context.doc deviceId attr buf len type >>= fun answer =>
    .ok (answer.1, { context with doc := answer.2 })

def chWriteAttr (context : XmlContext) (deviceId channel : String) (chOut : Bool)
    (attr : String) (buf : CharArray) (len : Nat) : Outcome (Int × XmlContext) :=
  writeChannelAttr context.doc deviceId channel chOut attr buf len >>= fun answer =>
    .ok (answer.1, { context with doc := answer.2 })

def perform (context : XmlContext) (write : AttributeWrite) : Outcome XmlContext :=
  match write.key with
  | .device deviceId type attr =>
      Prod.snd <$> context.writeAttr deviceId attr write.buf write.len type
  | .channel deviceId chn chOut attr =>
      Prod.snd <$> context.chWriteAttr deviceId chn chOut attr write.buf write.len

omit [LibXml2Text] in
theorem perform_eq (context : XmlContext) (write : AttributeWrite) :
    context.perform write = write.key.write context.doc write.buf write.len >>= fun answer =>
      .ok { context with doc := answer.2 } := by
  cases named : write.key with
  | device deviceId type attr =>
      simp only [perform, named, writeAttr, AttributeKey.write]
      cases writeDevAttr context.doc deviceId attr write.buf write.len type <;> rfl
  | channel deviceId chn chOut attr =>
      simp only [perform, named, chWriteAttr, AttributeKey.write]
      cases writeChannelAttr context.doc deviceId chn chOut attr write.buf write.len <;> rfl

end Calls

end XmlContext

/-! ## What a write can reach -/

theorem labelAt_of_lookup {doc : Option XmlDoc} {key : AttributeKey}
    {nodeAttr : NodePointer} (found : key.lookup doc = .ok (some nodeAttr)) :
    ∃ tree element, doc >>= XmlDoc.root = some tree ∧
    tree.labelAt nodeAttr = some element ∧
      element.name ≠ "context-attribute" := by
  rcases searched_of_lookup found with ⟨tree, rooted, searched⟩
  have reached {root : NodePointer} {nodeName attr : String}
      (foundAttr : getNode tree root nodeName "name" attr = some nodeAttr)
      (named : nodeName ≠ "context-attribute") :
      ∃ tree element, doc >>= XmlDoc.root = some tree ∧
      tree.labelAt nodeAttr = some element ∧
        element.name ≠ "context-attribute" := by
    rcases getNode_eq_some foundAttr with ⟨_, element, _, there, name, _⟩
    exact ⟨tree, element, rooted, there, name ▸ named⟩
  cases key with
  | device deviceId type attr =>
      rcases searched with ⟨_, _, foundAttr⟩
      exact reached foundAttr (by cases type <;> decide)
  | channel deviceId chn chOut attr =>
      rcases searched with ⟨_, _, _, _, foundAttr⟩
      exact reached foundAttr (by decide)

def AttributeKey.EndsInside (tree : XmlNode) : AttributeKey → Prop
  | .device _ _ _ => True
  | .channel deviceId chn chOut _ =>
      ∀ device, getNode tree [] "device" "id" deviceId >>= tree.descend = some device →
        (∃ child ∈ device.children, child.label.suits "channel"
          [("id", chn), ("type", directionName chOut)]) ∨
        ∀ last ∈ device.children.getLast?, last.label.name ≠ "channel"

theorem lookup_returns_iff (tree : XmlNode) (key : AttributeKey) :
    (∃ found, key.lookup (some ⟨some tree⟩) = .ok found) ↔ key.EndsInside tree := by
  cases key with
  | device deviceId type attr => simp [AttributeKey.lookup, AttributeKey.EndsInside]
  | channel deviceId chn chOut attr =>
      simp only [AttributeKey.lookup, getChannelAttr, AttributeKey.EndsInside]
      cases foundDevice : getNode tree [] "device" "id" deviceId with
      | none => simp [foundDevice]
      | some nodeDevice =>
          rcases getNode_eq_some foundDevice with ⟨_, element, _, there, _⟩
          rw [LabelledTree.labelAt, Option.map_eq_some_iff] at there
          rcases there with ⟨device, reached, _⟩
          simp only [Option.bind_eq_bind, Option.bind_some, foundDevice, reached,
            Option.some.injEq, forall_eq']
          rw [← getNodeNAttrs_returns_iff reached]
          constructor
          · rintro ⟨_, returned⟩
            rw [Outcome.bind_eq_ok] at returned
            rcases returned with ⟨found, searched, _⟩
            exact ⟨found, searched⟩
          · rintro ⟨found, searched⟩
            rw [searched, Outcome.ok_bind]
            cases found with
            | none => exact ⟨_, rfl⟩
            | some nodeChannel => exact ⟨_, rfl⟩

/-! ## Writes and the description -/

section Fresh

variable [LibXml2] [LibXml2Text]

def KeepsNamesDistinct : Prop :=
  ∀ (element : XmlElement) (attrName value : String), element.NamesDistinct →
    (LibXml2.setProp element attrName value).NamesDistinct

omit [LibXml2Text] in
theorem published_setProp {element : XmlElement}
    (named : element.name ≠ "context-attribute") (value : String) :
    (LibXml2.setProp element "value" value).published = element.published := by
  have same := LibXml2.without_setProp element "value" value
  have sameName := congrArg XmlElement.name same
  simp only [XmlElement.without] at sameName
  rw [XmlElement.published, XmlElement.published, sameName,
    if_neg named, if_neg named, same]

/-- A context some writes after it was constructed with a document: its document shows the
same and is searched the same way, and it holds the first description. -/
structure Described (tree : XmlNode) (context : XmlContext) : Prop where
  written : ∃ now, context.doc = some ⟨some now⟩ ∧
    (∀ element ∈ now.labels, element.NamesDistinct) ∧
    now.map XmlElement.published = tree.map XmlElement.published
  searched : ∀ key : AttributeKey, key.lookup context.doc = key.lookup (some ⟨some tree⟩)
  cached : ∀ outxml, context.getXml outxml =
    (XmlContext.construct (some ⟨some tree⟩)).getXml outxml

omit [LibXml2] in
theorem described_construct {tree : XmlNode}
    (distinct : ∀ element ∈ tree.labels, element.NamesDistinct) :
    Described tree (XmlContext.construct (some ⟨some tree⟩)) where
  written := ⟨tree, rfl, distinct, rfl⟩
  searched _ := rfl
  cached _ := rfl

theorem Described.setValue {tree : XmlNode} {context : XmlContext}
    (described : Described tree context) (keeps : KeepsNamesDistinct) {key : AttributeKey}
    {nodeAttr : NodePointer} (found : key.lookup context.doc = .ok (some nodeAttr))
    (text : String) :
    Described tree { context with doc := setValue context.doc nodeAttr text } := by
  rcases described.written with ⟨now, opened, distinct, shown⟩
  rcases labelAt_of_lookup found with ⟨other, element, rooted, there, named⟩
  rw [opened] at rooted
  cases rooted
  let change := fun element => LibXml2.setProp element "value" text
  constructor
  · refine ⟨LabelledTree.modifyLabel change nodeAttr now, ?_, ?_, ?_⟩
    · rw [opened]
      rfl
    · apply LabelledTree.forall_labels_modifyLabel ?_ nodeAttr distinct
      intro label labelDistinct
      exact keeps label "value" text labelDistinct
    · rw [← shown]
      apply LabelledTree.map_modifyLabel_at
      intro label reached
      rw [there] at reached
      cases reached
      exact published_setProp named text
  · intro other
    rw [lookup_setValue, described.searched]
  · exact described.cached

theorem Described.perform {tree : XmlNode} {context : XmlContext}
    (described : Described tree context) (keeps : KeepsNamesDistinct)
    (write : AttributeWrite) :
    (∀ next, context.perform write = .ok next → Described tree next) ∧
      ((∃ next, context.perform write = .ok next) ↔ write.key.EndsInside tree) := by
  rw [XmlContext.perform_eq, ← lookup_returns_iff,
    ← described.searched, AttributeWrite.buf]
  cases found : write.key.lookup context.doc with
  | error fault => simp [AttributeKey.write_fault found]
  | ok place =>
      cases place with
      | none => simp [AttributeKey.write_absent found, described]
      | some nodeAttr =>
          have set := described.setValue keeps found write.text
          simp [AttributeKey.write_found found write.free, set]

theorem Described.run {tree : XmlNode} {context : XmlContext}
    (described : Described tree context) (keeps : KeepsNamesDistinct)
    (writes : List AttributeWrite) :
    (∀ final, Execution.run XmlContext.perform context writes = .ok final →
        Described tree final) ∧
      ((∃ final, Execution.run XmlContext.perform context writes = .ok final) ↔
        ∀ write ∈ writes, write.key.EndsInside tree) := by
  induction writes generalizing context with
  | nil => simp [described]
  | cons write writes induction =>
      have stepped := described.perform keeps write
      rw [Execution.run_cons, List.forall_mem_cons]
      cases performed : context.perform write with
      | error fault =>
          have outside : ¬ write.key.EndsInside tree := by
            rw [← stepped.2, performed]
            simp
          simp [outside]
      | ok next =>
          have inside : write.key.EndsInside tree := stepped.2.mp ⟨next, performed⟩
          have rest := induction (stepped.1 next performed)
          simpa [inside] using rest

omit [LibXml2] in
theorem Described.getXml_eq {tree : XmlNode} {context : XmlContext}
    (described : Described tree context)
    (distinct : ∀ element ∈ tree.labels, element.NamesDistinct)
    (original : RoundTrips ⟨some tree⟩)
    (roundTrips : ∀ written ∈ context.doc, RoundTrips written) :
    getXml context.doc = getXml (some ⟨some tree⟩) := by
  rcases described.written with ⟨now, opened, nowDistinct, shown⟩
  rw [opened] at roundTrips ⊢
  rw [IioEmu.getXml_eq original, IioEmu.getXml_eq (roundTrips _ rfl), Option.map_some,
    Option.map_some, removeValueAttribute_eq_published distinct,
    removeValueAttribute_eq_published nowDistinct, shown]

/-- A series of writes leaves the description what it was exactly when none of them steps past
the last channel of a device. -/
theorem description_fresh_iff (keeps : KeepsNamesDistinct) {tree : XmlNode}
    (distinct : ∀ element ∈ tree.labels, element.NamesDistinct)
    (original : RoundTrips ⟨some tree⟩) (writes : List AttributeWrite)
    (roundTrips : ∀ context, Execution.run XmlContext.perform
      (XmlContext.construct (some ⟨some tree⟩)) writes = .ok context →
      ∀ written ∈ context.doc, RoundTrips written) :
    (∃ context, Execution.run XmlContext.perform
        (XmlContext.construct (some ⟨some tree⟩)) writes = .ok context ∧
      getXml context.doc = getXml (some ⟨some tree⟩) ∧
      context.getXml true = getXml (some ⟨some tree⟩)) ↔
      ∀ write ∈ writes, write.key.EndsInside tree := by
  have ran := (described_construct distinct).run keeps writes
  rw [← ran.2]
  constructor
  · rintro ⟨context, ended, _⟩
    exact ⟨context, ended⟩
  · rintro ⟨context, ended⟩
    have described := ran.1 context ended
    exact ⟨context, ended,
      described.getXml_eq distinct original (roundTrips context ended),
      described.cached true⟩

end Fresh

section Examples

open scoped Reference

theorem keepsNamesDistinct_reference : KeepsNamesDistinct := by
  intro element attrName value distinct
  have names : ∀ properties : List XmlAttribute,
      (setFirstProperty attrName value properties).map XmlAttribute.name =
        if attrName ∈ properties.map XmlAttribute.name then properties.map XmlAttribute.name
        else properties.map XmlAttribute.name ++ [attrName] := by
    intro properties
    induction properties with
    | nil => rfl
    | cons property rest induction =>
        by_cases same : property.name = attrName
        · simp [setFirstProperty, same]
        · rw [setFirstProperty, if_neg same, List.map_cons, induction, List.map_cons]
          simp only [List.mem_cons, Ne.symm same, false_or]
          split <;> rfl
  change ((setFirstProperty attrName value element.properties).map XmlAttribute.name).Nodup
  rw [names]
  split
  · exact distinct
  case isFalse absent =>
    rw [List.nodup_append]
    refine ⟨distinct, by simp, ?_⟩
    intro name member other same equal
    rw [List.mem_singleton] at same
    exact absent (same ▸ equal ▸ member)

def oneChannel (raw : String) : XmlNode :=
  .node ⟨"context", [⟨"name", "local"⟩], ""⟩ [
    .node ⟨"context-attribute", [⟨"name", "hw_serial"⟩, ⟨"value", "104"⟩], ""⟩ [],
    .node ⟨"device", [⟨"id", "iio:device0"⟩], ""⟩ [
      .node ⟨"attribute", [⟨"name", "raw"⟩, ⟨"value", raw⟩], ""⟩ [],
      .node ⟨"channel", [⟨"id", "voltage0"⟩, ⟨"type", "input"⟩], ""⟩ []]]

def setRaw (text : String) (free : NulFree text) : AttributeWrite :=
  ⟨.device "iio:device0" .device "raw", text, free, [], text.length⟩

theorem roundTrips_oneChannel :
    ∀ raw ∈ ["1", "2"], RoundTrips ⟨some (oneChannel raw)⟩ := by
  intro raw member
  apply Reference.roundTrips
  · exact show "context" ≠ "text" by decide
  · revert raw
    decide +kernel
  · revert raw
    simp only [List.forall_mem_cons]
    exact ⟨rfl, rfl, by simp⟩

theorem written_value_is_not_advertised :
    ∃ context, Execution.run XmlContext.perform
        (XmlContext.construct (some ⟨some (oneChannel "1")⟩))
        [setRaw "2" (by decide)] = .ok context ∧
      getXml context.doc = getXml (some ⟨some (oneChannel "1")⟩) ∧
      context.getXml true = getXml (some ⟨some (oneChannel "1")⟩) := by
  have ran : Execution.run XmlContext.perform
      (XmlContext.construct (some ⟨some (oneChannel "1")⟩)) [setRaw "2" (by decide)] =
      .ok { XmlContext.construct (some ⟨some (oneChannel "1")⟩) with
        doc := some ⟨some (oneChannel "2")⟩ } := rfl
  apply (description_fresh_iff keepsNamesDistinct_reference (by decide +kernel)
    (roundTrips_oneChannel "1" (by decide)) [setRaw "2" (by decide)] ?_).mpr
  · simp [setRaw, AttributeKey.EndsInside]
  · intro context ended written opened
    rw [ran] at ended
    cases ended
    cases opened
    exact roundTrips_oneChannel "2" (by decide)

/-- A write to a channel the device does not have steps past its only one. -/
theorem missing_channel_ends_the_run :
    ¬ ∃ context, Execution.run XmlContext.perform
        (XmlContext.construct (some ⟨some (oneChannel "1")⟩))
        [⟨.channel "iio:device0" "voltage1" false "raw",
        "2", by decide, [], 1⟩] = .ok context ∧
      getXml context.doc = getXml (some ⟨some (oneChannel "1")⟩) ∧
      context.getXml true = getXml (some ⟨some (oneChannel "1")⟩) := by
  have stepsOff : Execution.run XmlContext.perform
      (XmlContext.construct (some ⟨some (oneChannel "1")⟩))
      [⟨.channel "iio:device0" "voltage1" false "raw", "2", by decide, [], 1⟩] =
      .error .nullPointer := rfl
  rintro ⟨context, ended, _⟩
  rw [stepsOff] at ended
  cases ended

end Examples

end IioEmu
