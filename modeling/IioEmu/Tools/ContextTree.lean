import IioEmu.Tools.GenXml
import IioEmu.Xml.Markup

/-! # The document of a context

The tree a context stands for, and the tags the generator writes for the nodes of this tree.
Only the attributes of the context itself are encoded. -/

namespace IioEmu.GenXml

open Xml

variable {δ : Type} [PrintfDouble δ]

/-! ## The strings of a context -/

section Strings

variable (Named Valued : String → Prop)

structure IioAttr.All (attr : IioAttr) : Prop where
  name : Named attr.name
  value : ∀ value ∈ attr.value, Valued value

structure IioChannelAttr.All (attr : IioChannelAttr) : Prop where
  filename : ∀ filename ∈ attr.filename, Named filename
  attr : attr.toIioAttr.All Named Valued

structure IioChannel.All (chn : IioChannel δ) : Prop where
  id : Named chn.id
  name : ∀ name ∈ chn.name, Named name
  attrs : ∀ attr ∈ chn.attrs, attr.All Named Valued

structure IioDevice.All (dev : IioDevice δ) : Prop where
  id : Named dev.id
  name : ∀ name ∈ dev.name, Named name
  channels : ∀ chn ∈ dev.channels, chn.All Named Valued
  attrs : ∀ attr ∈ dev.attrs, attr.All Named Valued
  bufferAttrs : ∀ attr ∈ dev.bufferAttrs, attr.All Named Valued
  debugAttrs : ∀ attr ∈ dev.debugAttrs, attr.All Named Valued

/-- One property for ids, names and descriptions and one for values. The attributes of the
context itself are not meant. -/
structure IioContext.All (ctx : IioContext δ) : Prop where
  name : Named ctx.name
  description : ∀ description ∈ ctx.description, Named description
  devices : ∀ dev ∈ ctx.devices, dev.All Named Valued

end Strings

/-! ## The tree -/

def attrElement (type : IioAttrType) (attr : IioAttr) : XmlElement :=
  ⟨type.nodeName, [⟨"name", attr.name⟩, ⟨"value", valueOf attr⟩], ""⟩

def attrNode (type : IioAttrType) (attr : IioAttr) : XmlNode :=
  .node (attrElement type attr) []

def channelAttrElement (attr : IioChannelAttr) : XmlElement :=
  ⟨"attribute",
    ⟨"name", attr.name⟩ :: (attr.filename.toList.map (XmlAttribute.mk "filename") ++
    [⟨"value", valueOf attr.toIioAttr⟩]), ""⟩

def channelAttrNode (attr : IioChannelAttr) : XmlNode :=
  .node (channelAttrElement attr) []

def formatHead (format : IioDataFormat δ) : List Char :=
  (if format.isBe then ['b'] else ['l']) ++ ['e', ':'] ++ (signLetter format).toList ++
    format.bits.toNat.repr.toList ++
    '/' :: format.length.toNat.repr.toList ++ repeatText format

def formatText (format : IioDataFormat δ) : List Char :=
  formatHead format ++ ['>', '>'] ++ format.shift.toNat.repr.toList

def scaleText (format : IioDataFormat δ) : Option String :=
  if format.withScale then some (PrintfDouble.fixed format.scale) else none

def scanElement (chn : IioChannel δ) : XmlElement :=
  ⟨"scan-element", ⟨"index", toString chn.index.toInt⟩ ::
    ⟨"format", String.ofList (formatText chn.format)⟩ ::
      (scaleText chn.format).toList.map (XmlAttribute.mk "scale"), ""⟩

def scanElementNodes (chn : IioChannel δ) : List XmlNode :=
  if chn.isScanElement then [.node (scanElement chn) []] else []

def channelElement (chn : IioChannel δ) : XmlElement :=
  ⟨"channel", ⟨"id", chn.id⟩ :: (chn.name.toList.map (XmlAttribute.mk "name") ++
    [⟨"type", directionName chn.isOutput⟩]), ""⟩

def channelNode (chn : IioChannel δ) : XmlNode :=
  .node (channelElement chn) (scanElementNodes chn ++ chn.attrs.map channelAttrNode)

def deviceElement (dev : IioDevice δ) : XmlElement :=
  ⟨"device", ⟨"id", dev.id⟩ :: dev.name.toList.map (XmlAttribute.mk "name"), ""⟩

def deviceNode (dev : IioDevice δ) : XmlNode :=
  .node (deviceElement dev)
    (dev.channels.map channelNode ++ dev.attrs.map (attrNode .device) ++
      dev.bufferAttrs.map (attrNode .buffer) ++ dev.debugAttrs.map (attrNode .debug))

def contextAttrElement (attr : XmlAttribute) : XmlElement :=
  ⟨"context-attribute", [⟨"name", attr.name⟩, ⟨"value", attr.value⟩], ""⟩

def contextAttrNode (attr : XmlAttribute) : XmlNode := .node (contextAttrElement attr) []

def contextElement (ctx : IioContext δ) : XmlElement :=
  ⟨"context", ⟨"name", ctx.name⟩ ::
    ctx.description.toList.map (XmlAttribute.mk "description"), ""⟩

def contextTree (ctx : IioContext δ) (devices : List (IioDevice δ)) : XmlNode :=
  .node (contextElement ctx) (ctx.attrs.map contextAttrNode ++ devices.map deviceNode)

/-! ## The tags -/

def verbatim (property : XmlAttribute) : Spelling := ⟨property, property.value.toList⟩

def verbatimTag (element : XmlElement) : Tag :=
  ⟨element.name, element.properties.map verbatim⟩

def formatSpelling (format : IioDataFormat δ) : Spelling where
  property := ⟨"format", String.ofList (formatText format)⟩
  literal := formatHead format ++ ['&', 'g', 't', ';', '&', 'g', 't', ';'] ++
    format.shift.toNat.repr.toList

def scanElementTag (chn : IioChannel δ) : Tag :=
  ⟨"scan-element",
    verbatim ⟨"index", toString chn.index.toInt⟩ :: formatSpelling chn.format ::
    (scaleText chn.format).toList.map fun scale => verbatim ⟨"scale", scale⟩⟩

section Encoded

variable [XmlEncode]

def encoded (property : XmlAttribute) : Spelling :=
  ⟨property, (XmlEncode.encodeXmlNdup property.value).toList⟩

def encodedTag (element : XmlElement) : Tag :=
  ⟨element.name, element.properties.map encoded⟩

end Encoded

end IioEmu.GenXml
