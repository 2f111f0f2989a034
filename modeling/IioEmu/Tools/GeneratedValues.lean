import Mathlib.Data.List.Nodup
import IioEmu.Tools.GeneratedXml
import IioEmu.Utils.AttrOpsXml
import IioEmu.Utils.ChannelLookup

/-! # Values read from the generated document

The emulator finds every attribute of a context in the document the generator writes for it,
and reads the value the generator read. -/

namespace IioEmu

/-! ## A node found by what only it has -/

theorem findIdx?_of_unique {α : Type} {values : List α} {passes : α → Bool} {value : α}
    (member : value ∈ values) (suited : passes value)
    (unique : ∀ other ∈ values, passes other → other = value) :
    ∃ position, values.findIdx? passes = some position ∧
    values[position]? = some value := by
  have present : (values.findIdx? passes).isSome := by
    rw [List.findIdx?_isSome, List.any_eq_true]
    exact ⟨value, member, suited⟩
  rcases Option.isSome_iff_exists.mp present with ⟨position, found⟩
  refine ⟨position, found, ?_⟩
  rw [List.findIdx?_eq_some_iff_getElem] at found
  rcases found with ⟨inside, passed, _⟩
  rw [List.getElem?_eq_getElem inside, unique _ (List.getElem_mem inside) passed]

section Unique

variable {tree parent node : XmlNode} {root : NodePointer} {nodeName : String}
  (reached : tree.descend root = some parent) (member : node ∈ parent.children)

include reached member

theorem getNode_of_unique {attrName attrValue : String}
    (named : node.label.name = nodeName) (has : node.label.hasProperty attrName attrValue)
    (unique : ∀ other ∈ parent.children, other.label.name = nodeName →
      other.label.hasProperty attrName attrValue → other = node) :
    ∃ nodePointer, getNode tree root nodeName attrName attrValue = some nodePointer ∧
      tree.descend nodePointer = some node := by
  rcases @findIdx?_of_unique _ _ (fun node => node.label.name == nodeName &&
      node.label.hasProperty attrName attrValue) _ member (by simp [named, has])
      (by simpa using unique) with ⟨position, found, located⟩
  refine ⟨root ++ [position], ?_, ?_⟩
  · simp [getNode, reached, found]
  · rw [LabelledTree.descend_concat reached, located]

theorem getNodeNAttrs_of_unique {wanted : List (String × String)}
    (suited : node.label.suits nodeName wanted)
    (unique : ∀ other ∈ parent.children,
      other.label.suits nodeName wanted → other = node) :
    ∃ nodePointer, getNodeNAttrs tree root nodeName wanted = .ok (some nodePointer) ∧
      tree.descend nodePointer = some node := by
  rcases findIdx?_of_unique member suited unique with ⟨position, found, located⟩
  refine ⟨root ++ [position], ?_, ?_⟩
  · rw [getNodeNAttrs_eq reached, found]
  · rw [LabelledTree.descend_concat reached, located]

end Unique

namespace GenXml

open Xml

/-! ## Strings that are written as they are -/

def WithoutMarkup (text : String) : Prop :=
  ∀ c ∈ text.toList, isPrint c = true ∧ c ≠ '<' ∧ c ≠ '>' ∧ c ≠ '&' ∧ c ≠ '"'

theorem WithoutMarkup.printable {text : String}
    (clean : WithoutMarkup text) : Printable text :=
  fun c member => (clean c member).1

theorem WithoutMarkup.needsNoEscape {text : String} (clean : WithoutMarkup text) :
    NeedsNoEscape text := by
  intro c member
  rcases clean c member with ⟨_, noTag, _, noReference, noQuote⟩
  exact ⟨noTag, noReference, noQuote⟩

theorem WithoutMarkup.nulFree {text : String}
    (clean : WithoutMarkup text) : NulFree text := by
  intro member
  exact absurd (clean nul member).1 (by decide)

theorem withoutMarkup_error : WithoutMarkup "ERROR" := by
  rw [WithoutMarkup]
  decide

section Encoded

variable [XmlEncode]

theorem WithoutMarkup.encodeXmlNdup_eq {text : String} (clean : WithoutMarkup text) :
    XmlEncode.encodeXmlNdup text = text := by
  apply String.toList_injective
  rw [XmlEncode.encoded text clean.printable]
  have kept : ∀ c ∈ text.toList, encodeEntity XmlEncode.quotation c = [c] := by
    intro c member
    rcases clean c member with ⟨_, noTag, noEnd, noReference, noQuote⟩
    simp [encodeEntity, noTag, noEnd, noReference, noQuote]
  rw [List.flatMap_congr kept, List.flatMap_singleton']

theorem WithoutMarkup.quotesEncoded {text : String} (clean : WithoutMarkup text) :
    QuotesEncoded text :=
  fun _ member => (clean '"' member).2.2.2.2 rfl

end Encoded

section Weaker

variable {Named Valued OtherNamed OtherValued : String → Prop}
  (named : ∀ {text}, Named text → OtherNamed text)
  (valued : ∀ {text}, Valued text → OtherValued text) {δ : Type}

include named valued

theorem IioAttr.All.imp {attr : IioAttr} (all : attr.All Named Valued) :
    attr.All OtherNamed OtherValued :=
  ⟨named all.name, fun value given => valued (all.value value given)⟩

theorem IioChannelAttr.All.imp {attr : IioChannelAttr} (all : attr.All Named Valued) :
    attr.All OtherNamed OtherValued :=
  ⟨fun filename given => named (all.filename filename given), all.attr.imp named valued⟩

theorem IioChannel.All.imp {chn : IioChannel δ} (all : chn.All Named Valued) :
    chn.All OtherNamed OtherValued :=
  ⟨named all.id, fun name given => named (all.name name given),
    fun attr member => (all.attrs attr member).imp named valued⟩

theorem IioDevice.All.imp {dev : IioDevice δ} (all : dev.All Named Valued) :
    dev.All OtherNamed OtherValued where
  id := named all.id
  name name given := named (all.name name given)
  channels chn member := (all.channels chn member).imp named valued
  attrs attr member := (all.attrs attr member).imp named valued
  bufferAttrs attr member := (all.bufferAttrs attr member).imp named valued
  debugAttrs attr member := (all.debugAttrs attr member).imp named valued

theorem IioContext.All.imp {ctx : IioContext δ} (all : ctx.All Named Valued) :
    ctx.All OtherNamed OtherValued where
  name := named all.name
  description description given := named (all.description description given)
  devices dev member := (all.devices dev member).imp named valued

end Weaker

/-! ## What tells the nodes apart -/

section Distinct

variable {δ : Type}

def IioDevice.attrsOf (dev : IioDevice δ) : IioAttrType → List IioAttr
  | .device => dev.attrs
  | .debug => dev.debugAttrs
  | .buffer => dev.bufferAttrs

structure IioDevice.Distinct (dev : IioDevice δ) : Prop where
  channels : (dev.channels.map fun chn => (chn.id, chn.isOutput)).Nodup
  attrs : ∀ type, ((dev.attrsOf type).map IioAttr.name).Nodup
  channelAttrs : ∀ chn ∈ dev.channels, (chn.attrs.map fun attr => attr.name).Nodup

structure IioContext.Distinct (ctx : IioContext δ) : Prop where
  devices : (ctx.devices.map IioDevice.id).Nodup
  parts : ∀ dev ∈ ctx.devices, dev.Distinct

structure IioContext.WithoutMarkup (ctx : IioContext δ) : Prop where
  strings : ctx.All GenXml.WithoutMarkup GenXml.WithoutMarkup
  attrs : ∀ attr ∈ ctx.attrs, GenXml.WithoutMarkup attr.name ∧
    GenXml.WithoutMarkup attr.value

theorem hasProperty_deviceElement_iff (dev : IioDevice δ) (id : String) :
    (deviceElement dev).hasProperty "id" id ↔ dev.id = id := by
  cases named : dev.name <;> simp [deviceElement, XmlElement.hasProperty, named]

theorem hasProperty_attrElement_iff (type : IioAttrType)
    (attr : IioAttr) (name : String) :
    (attrElement type attr).hasProperty "name" name ↔ attr.name = name := by
  simp [attrElement, XmlElement.hasProperty]

theorem hasProperty_channelAttrElement_iff (attr : IioChannelAttr) (name : String) :
    (channelAttrElement attr).hasProperty "name" name ↔ attr.name = name := by
  cases given : attr.filename <;> simp [channelAttrElement, XmlElement.hasProperty, given]

theorem suits_channelElement_iff (chn : IioChannel δ) (id : String) (chOut : Bool) :
    (channelElement chn).suits "channel" [("id", id), ("type", directionName chOut)] ↔
      chn.id = id ∧ chn.isOutput = chOut := by
  have direction : directionName chn.isOutput = directionName chOut ↔
      chn.isOutput = chOut :=
    directionName_injective.eq_iff
  cases named : chn.name <;>
    simp [XmlElement.suits, XmlElement.mismatches, channelElement, named, direction]

theorem property?_attrElement (type : IioAttrType) (attr : IioAttr) :
    (attrElement type attr).property? "value" = some (valueOf attr) := by
  simp [attrElement, XmlElement.property?]

theorem property?_channelAttrElement (attr : IioChannelAttr) :
    (channelAttrElement attr).property? "value" = some (valueOf attr.toIioAttr) := by
  cases given : attr.filename <;> simp [channelAttrElement, XmlElement.property?, given]

/-! ## The lookups -/

theorem nodeName_ne_channel (type : IioAttrType) : type.nodeName ≠ "channel" := by
  cases type <;> decide

variable [PrintfDouble δ]

theorem mem_children_deviceNode_iff {dev : IioDevice δ} {node : XmlNode} :
    node ∈ (deviceNode dev).children ↔ (∃ chn ∈ dev.channels, channelNode chn = node) ∨
      ∃ type, ∃ attr ∈ dev.attrsOf type, attrNode type attr = node := by
  simp only [deviceNode, LabelledTree.children_node, List.mem_append, List.mem_map]
  constructor
  · rintro (((channel | attr) | buffer) | debug)
    · exact Or.inl channel
    · exact Or.inr ⟨.device, attr⟩
    · exact Or.inr ⟨.buffer, buffer⟩
    · exact Or.inr ⟨.debug, debug⟩
  · rintro (channel | ⟨type, attr⟩)
    · exact Or.inl (Or.inl (Or.inl channel))
    · cases type with
      | device => exact Or.inl (Or.inl (Or.inr attr))
      | debug => exact Or.inr attr
      | buffer => exact Or.inl (Or.inr attr)

theorem mem_children_channelNode {chn : IioChannel δ} {node : XmlNode}
    (member : node ∈ (channelNode chn).children) :
    node.label.name = "scan-element" ∨ ∃ attr ∈ chn.attrs,
    channelAttrNode attr = node := by
  rw [channelNode, LabelledTree.children_node, List.mem_append, List.mem_map] at member
  rcases member with scan | attr
  · apply Or.inl
    rw [scanElementNodes] at scan
    split at scan
    · rw [List.mem_singleton.mp scan]
      rfl
    · cases scan
  · exact Or.inr attr

variable {ctx : IioContext δ} (distinct : ctx.Distinct) {dev : IioDevice δ}
  (isDevice : dev ∈ ctx.devices)

include distinct isDevice

theorem getNode_device :
    ∃ nodeDevice, getNode (contextTree ctx ctx.devices) [] "device" "id" dev.id =
        some nodeDevice ∧
      (contextTree ctx ctx.devices).descend nodeDevice = some (deviceNode dev) := by
  apply getNode_of_unique (LabelledTree.descend_nil _)
  · rw [contextTree, LabelledTree.children_node, List.mem_append]
    exact Or.inr (List.mem_map_of_mem isDevice)
  · rfl
  · exact (hasProperty_deviceElement_iff dev dev.id).mpr rfl
  · intro other member named has
    rw [contextTree, LabelledTree.children_node, List.mem_append, List.mem_map,
      List.mem_map] at member
    rcases member with ⟨attr, _, rfl⟩ | ⟨otherDev, isOther, rfl⟩
    · exact absurd named (show "context-attribute" ≠ "device" by decide)
    · have same := (hasProperty_deviceElement_iff otherDev dev.id).mp has
      rw [List.inj_on_of_nodup_map distinct.devices isOther isDevice same]

theorem getDeviceAttr_of_mem (type : IioAttrType) {attr : IioAttr}
    (isAttr : attr ∈ dev.attrsOf type) :
    ∃ nodeAttr, getDeviceAttr (some ⟨some (contextTree ctx ctx.devices)⟩)
      dev.id type attr.name =
        some nodeAttr ∧
      (contextTree ctx ctx.devices).descend nodeAttr = some (attrNode type attr) := by
  rcases getNode_device distinct isDevice with ⟨nodeDevice, found, reached⟩
  have lookup : getDeviceAttr (some ⟨some (contextTree ctx ctx.devices)⟩)
      dev.id type attr.name =
      getNode (contextTree ctx ctx.devices) nodeDevice type.nodeName "name" attr.name := by
    simp [getDeviceAttr, found]
  rw [lookup]
  apply getNode_of_unique reached
  · exact mem_children_deviceNode_iff.mpr (Or.inr ⟨type, attr, isAttr, rfl⟩)
  · rfl
  · exact (hasProperty_attrElement_iff type attr attr.name).mpr rfl
  · intro other member named has
    rcases mem_children_deviceNode_iff.mp member with
      ⟨chn, _, rfl⟩ | ⟨otherType, otherAttr, isOther, rfl⟩
    · exact absurd named.symm (nodeName_ne_channel type)
    · have sameType : otherType = type := IioAttrType.nodeName_injective named
      subst sameType
      have same := (hasProperty_attrElement_iff otherType otherAttr attr.name).mp has
      rw [List.inj_on_of_nodup_map
        ((distinct.parts dev isDevice).attrs otherType) isOther isAttr
        same]

theorem getChannelAttr_of_mem {chn : IioChannel δ} (isChannel : chn ∈ dev.channels)
    {attr : IioChannelAttr} (isAttr : attr ∈ chn.attrs) :
    ∃ nodeAttr, getChannelAttr (some ⟨some (contextTree ctx ctx.devices)⟩) chn.id dev.id
        attr.name chn.isOutput = .ok (some nodeAttr) ∧
      (contextTree ctx ctx.devices).descend nodeAttr = some (channelAttrNode attr) := by
  have parts := distinct.parts dev isDevice
  rcases getNode_device distinct isDevice with ⟨nodeDevice, found, reached⟩
  have channel : ∃ nodeChannel, getNodeNAttrs (contextTree ctx ctx.devices)
        nodeDevice "channel"
        [("id", chn.id), ("type", directionName chn.isOutput)] = .ok (some nodeChannel) ∧
      (contextTree ctx ctx.devices).descend nodeChannel = some (channelNode chn) := by
    apply getNodeNAttrs_of_unique reached
    · exact mem_children_deviceNode_iff.mpr (Or.inl ⟨chn, isChannel, rfl⟩)
    · exact (suits_channelElement_iff chn chn.id chn.isOutput).mpr ⟨rfl, rfl⟩
    · intro other member suited
      rcases mem_children_deviceNode_iff.mp member with
        ⟨otherChn, isOther, rfl⟩ | ⟨type, otherAttr, _, rfl⟩
      · have same := (suits_channelElement_iff otherChn chn.id chn.isOutput).mp suited
        rw [List.inj_on_of_nodup_map parts.channels isOther isChannel
          (Prod.ext same.1 same.2)]
      · rw [XmlElement.suits, Bool.and_eq_true, beq_iff_eq] at suited
        exact absurd suited.1 (nodeName_ne_channel type)
  rcases channel with ⟨nodeChannel, foundChannel, reachedChannel⟩
  have located : ∃ nodeAttr, getNode (contextTree ctx ctx.devices) nodeChannel "attribute"
        "name" attr.name = some nodeAttr ∧
      (contextTree ctx ctx.devices).descend nodeAttr = some (channelAttrNode attr) := by
    apply getNode_of_unique reachedChannel
    · rw [channelNode, LabelledTree.children_node, List.mem_append]
      exact Or.inr (List.mem_map_of_mem isAttr)
    · rfl
    · exact (hasProperty_channelAttrElement_iff attr attr.name).mpr rfl
    · intro other member named has
      rcases mem_children_channelNode member with scan | ⟨otherAttr, isOther, rfl⟩
      · exact absurd (named.symm.trans scan) (by decide)
      · have same := (hasProperty_channelAttrElement_iff otherAttr attr.name).mp has
        rw [List.inj_on_of_nodup_map (parts.channelAttrs chn isChannel) isOther isAttr same]
  rcases located with ⟨nodeAttr, foundAttr, reachedAttr⟩
  refine ⟨nodeAttr, ?_, reachedAttr⟩
  simp [getChannelAttr, found, foundChannel, foundAttr]

end Distinct

/-! ## What the emulator reads -/

section Context

variable [Platform] [XmlEncode] {δ : Type} [PrintfDouble δ] {ctx : IioContext δ}

omit [Platform] [XmlEncode] [PrintfDouble δ] in
theorem IioContext.WithoutMarkup.attr {dev : IioDevice δ} (clean : ctx.WithoutMarkup)
    (isDevice : dev ∈ ctx.devices) {type : IioAttrType} {attr : IioAttr}
    (isAttr : attr ∈ dev.attrsOf type) :
    attr.All GenXml.WithoutMarkup GenXml.WithoutMarkup := by
  have all := clean.strings.devices dev isDevice
  cases type with
  | device => exact all.attrs attr isAttr
  | debug => exact all.debugAttrs attr isAttr
  | buffer => exact all.bufferAttrs attr isAttr

omit [Platform] [XmlEncode] in
theorem withoutMarkup_valueOf {attr : IioAttr}
    (clean : attr.All GenXml.WithoutMarkup GenXml.WithoutMarkup) :
    GenXml.WithoutMarkup (valueOf attr) := by
  rw [valueOf]
  cases given : attr.value with
  | none => exact withoutMarkup_error
  | some value => exact clean.value value given

theorem IioContext.WithoutMarkup.readsBack (clean : ctx.WithoutMarkup)
    (within : ctx.WithinLimits) : ReadsBack ctx := by
  apply readsBack_of_plain within
  · exact ⟨clean.strings.imp WithoutMarkup.printable WithoutMarkup.printable,
      fun attr member => ⟨(clean.attrs attr member).1.printable,
        (clean.attrs attr member).2.printable⟩⟩
  · exact ⟨clean.strings.imp WithoutMarkup.needsNoEscape WithoutMarkup.needsNoEscape,
      fun attr member => ⟨(clean.attrs attr member).1.quotesEncoded,
        (clean.attrs attr member).2.quotesEncoded⟩⟩
  · intro attr member
    rw [(clean.attrs attr member).1.encodeXmlNdup_eq,
      (clean.attrs attr member).2.encodeXmlNdup_eq]
    exact within.attrs attr member

variable [LibXml2]

omit [Platform] [XmlEncode] [PrintfDouble δ] in
theorem getProp_of_descend {tree node : XmlNode} {nodePointer : NodePointer}
    (reached : tree.descend nodePointer = some node) (attrName : String) :
    (⟨some tree⟩ : XmlDoc).getProp nodePointer attrName =
    node.label.property? attrName := by
  simp [XmlDoc.getProp, LabelledTree.labelAt, reached, LibXml2.getProp_eq]

/-- Every attribute is read with the value it had when the document was generated. -/
structure ReadsValues (ctx : IioContext δ) (document : XmlDoc) : Prop where
  device : ∀ dev ∈ ctx.devices, ∀ type, ∀ attr ∈ dev.attrsOf type,
    ∀ (buf : CharArray) (len : Nat),
    (valueOf attr).length < buf.length → (valueOf attr).length < len →
      readDeviceAttr (some document) dev.id attr.name buf len type =
        .ok (((valueOf attr).length : Int) + 1,
          terminated (valueOf attr) ++ buf.drop ((valueOf attr).length + 1))
  channel : ∀ dev ∈ ctx.devices, ∀ chn ∈ dev.channels,
    ∀ attr ∈ chn.attrs, ∀ (buf : CharArray)
    (len : Nat), (valueOf attr.toIioAttr).length < buf.length →
      (valueOf attr.toIioAttr).length < len →
      readChannelAttr (some document) dev.id chn.id chn.isOutput attr.name buf len =
        .ok (((valueOf attr.toIioAttr).length : Int) + 1,
          terminated (valueOf attr.toIioAttr) ++
          buf.drop ((valueOf attr.toIioAttr).length + 1))

omit [Platform] [XmlEncode] in
theorem readsValues_contextTree (clean : ctx.WithoutMarkup) (distinct : ctx.Distinct) :
    ReadsValues ctx ⟨some (contextTree ctx ctx.devices)⟩ where
  device dev isDevice type attr isAttr buf len room inside := by
    rcases getDeviceAttr_of_mem distinct isDevice type isAttr with
      ⟨nodeAttr, found, reached⟩
    have free := (withoutMarkup_valueOf (clean.attr isDevice isAttr)).nulFree
    rw [readDeviceAttr]
    simp only [found, getProp_of_descend reached, attrNode, LabelledTree.label_node,
      property?_attrElement]
    exact copyValue_of_lt free room inside
  channel dev isDevice chn isChannel attr isAttr buf len room inside := by
    rcases getChannelAttr_of_mem distinct isDevice isChannel isAttr with
      ⟨nodeAttr, found, reached⟩
    have all := ((clean.strings.devices dev isDevice).channels chn isChannel).attrs attr
      isAttr
    have free := (withoutMarkup_valueOf all.attr).nulFree
    rw [readChannelAttr]
    simp only [found, Outcome.ok_bind, getProp_of_descend reached, channelAttrNode,
      LabelledTree.label_node, property?_channelAttrElement]
    exact copyValue_of_lt free room inside

variable [LibXml2Text]

/-- The parser reads a well-formed text as the document it stands for. -/
def ConformsOn (text : List Char) : Prop :=
  ∀ tree, parse text = some tree →
    LibXml2Text.readMemory (String.ofList text) = some ⟨some tree⟩

/-- The generator and the emulator agree on every attribute of a context. -/
theorem generated_values_are_read (within : ctx.WithinLimits) (clean : ctx.WithoutMarkup)
    (distinct : ctx.Distinct)
    (conforms : ∀ text, iioContextCreateXml ctx = some text → ConformsOn text) :
    ∃ text document, iioContextCreateXml ctx = some text ∧
      LibXml2Text.readMemory (String.ofList text) = some document ∧
      ReadsValues ctx document := by
  rcases clean.readsBack within with ⟨text, created, parsed⟩
  exact ⟨text, _, created, conforms text created _ parsed,
    readsValues_contextTree clean distinct⟩

end Context

/-! ## Examples -/

section Examples

open scoped IioEmu.Reference GenXml.Reference

def supply : IioContext Int64 := ⟨"local", none, [], [supplyDevice]⟩

theorem all_supply {Named Valued : String → Prop}
    (named : ∀ name ∈ "local" :: supplyNames, Named name)
    (valued : ∀ value ∈ supplyValues, Valued value) : supply.All Named Valued := by
  have device :=
    all_supplyDevice (fun name member => named name (by simp [member])) valued
  exact ⟨named "local" (by simp), by simp [supply], by simp [supply, device]⟩

theorem withinLimits_supply : supply.WithinLimits := by
  refine ⟨all_supply ?_ ?_, by simp [supply]⟩
  · change ∀ name ∈ "local" :: supplyNames, name.length ≤ 255
    decide
  · change ∀ value ∈ supplyValues, value.length < 100
    decide

theorem withoutMarkup_supply : supply.WithoutMarkup := by
  refine ⟨all_supply ?_ ?_, by simp [supply]⟩
  all_goals
    simp only [GenXml.WithoutMarkup]
    decide

theorem distinct_supply : supply.Distinct := by
  refine ⟨by simp [supply], ?_⟩
  intro dev isDevice
  rw [List.mem_singleton.mp isDevice]
  refine ⟨by simp [supplyDevice, supplyChannelOf], ?_, ?_⟩
  · intro type
    cases type <;> simp [IioDevice.attrsOf, supplyDevice]
  · intro chn isChannel
    simp only [supplyDevice, List.mem_cons, List.not_mem_nil, or_false] at isChannel
    rcases isChannel with rfl | rfl <;> simp [supplyChannelOf]

theorem conformsOn_plain (text : List Char) : ConformsOn text := by
  intro tree parsed
  change (parse (String.ofList text).toList).map (fun tree => XmlDoc.mk (some tree)) = _
  rw [String.toList_ofList, parsed, Option.map_some]

theorem supply_values_are_read :
    ∃ text document, iioContextCreateXml supply = some text ∧
      LibXml2Text.readMemory (String.ofList text) = some document ∧
      ReadsValues supply document :=
  generated_values_are_read withinLimits_supply withoutMarkup_supply distinct_supply
    fun text _ => conformsOn_plain text

end Examples

end GenXml

end IioEmu
