import Mathlib.Algebra.GroupWithZero.Nat
import IioEmu.Xml.Reader

/-! # The generator of context documents

The generator asks libiio for a context and writes it as a document. It counts the characters
of every piece in advance and gives up when the count does not come out. -/

namespace IioEmu.GenXml

/-! ## What libiio knows of a context -/

/-- An attribute of a device with what a read of it gives, nothing where the read fails. -/
structure IioAttr where
  name : String
  value : Option String

structure IioChannelAttr extends IioAttr where
  filename : Option String

structure IioDataFormat (δ : Type) where
  length : UInt32
  bits : UInt32
  shift : UInt32
  isSigned : Bool
  isFullyDefined : Bool
  isBe : Bool
  withScale : Bool
  scale : δ
  repeats : UInt32

structure IioChannel (δ : Type) where
  id : String
  name : Option String
  isOutput : Bool
  isScanElement : Bool
  index : Int64
  format : IioDataFormat δ
  attrs : List IioChannelAttr

structure IioDevice (δ : Type) where
  id : String
  name : Option String
  channels : List (IioChannel δ)
  attrs : List IioAttr
  bufferAttrs : List IioAttr
  debugAttrs : List IioAttr

structure IioContext (δ : Type) where
  name : String
  description : Option String
  attrs : List XmlAttribute
  devices : List (IioDevice δ)

class Platform where
  NAME_MAX : Nat
  PAGESIZE : Nat
  name_max : 255 ≤ NAME_MAX

class PrintfDouble (δ : Type) where
  fixed : δ → String
  named : ∀ value, ∀ c ∈ (fixed value).toList, Xml.isNameChar c = true
  short : ∀ value, (fixed value).length ≤ 320

/-- A character in `xmlEncodeEntitiesReentrant` without a document. The reference for a
quotation mark is needed inside an attribute only. -/
def encodeEntity (quotation : List Char) (c : Char) : List Char :=
  if c = '<' then ['&', 'l', 't', ';']
  else if c = '>' then ['&', 'g', 't', ';']
  else if c = '&' then ['&', 'a', 'm', 'p', ';']
  else if c = '"' then quotation
  else [c]

def isPrint (c : Char) : Bool := 32 ≤ c.toNat && c.toNat ≤ 126

/-- Whether a quotation mark is left as it is depends on the library. -/
class XmlEncode where
  encodeXmlNdup : String → String
  quotation : List Char
  quotation_eq : quotation = ['"'] ∨ quotation = ['&', 'q', 'u', 'o', 't', ';']
  encoded : ∀ text : String, (∀ c ∈ text.toList, isPrint c = true) →
    (encodeXmlNdup text).toList = text.toList.flatMap (encodeEntity quotation)

def BUF_SIZE : Nat := 100

def xmlHeader : String :=
  "<?xml version=\"1.0\" encoding=\"utf-8\"?>" ++
  "<!DOCTYPE context [" ++
  "<!ELEMENT context (device | context-attribute)*>" ++
  "<!ELEMENT context-attribute EMPTY>" ++
  "<!ELEMENT device (channel | attribute | debug-attribute | buffer-attribute)*>" ++
  "<!ELEMENT channel (scan-element?, attribute*)>" ++
  "<!ELEMENT attribute EMPTY>" ++
  "<!ELEMENT scan-element EMPTY>" ++
  "<!ELEMENT debug-attribute EMPTY>" ++
  "<!ELEMENT buffer-attribute EMPTY>" ++
  "<!ATTLIST context name CDATA #REQUIRED description CDATA #IMPLIED>" ++
  "<!ATTLIST context-attribute name CDATA #REQUIRED value CDATA #REQUIRED>" ++
  "<!ATTLIST device id CDATA #REQUIRED name CDATA #IMPLIED>" ++
  "<!ATTLIST channel id CDATA #REQUIRED type (input|output) #REQUIRED name CDATA #IMPLIED>" ++
  "<!ATTLIST scan-element index CDATA #REQUIRED format CDATA #REQUIRED scale CDATA #IMPLIED>" ++
  "<!ATTLIST attribute name CDATA #REQUIRED filename CDATA #IMPLIED value CDATA #IMPLIED>" ++
  "<!ATTLIST debug-attribute name CDATA #REQUIRED value CDATA #IMPLIED>" ++
  "<!ATTLIST buffer-attribute name CDATA #REQUIRED value CDATA #IMPLIED>" ++
  "]>"

/-! ## Printing -/

def written (parts : List String) : List Char := parts.flatMap String.toList

def snprintf (size : Nat) (text : List Char) : List Char := text.take (size - 1)

/-- A string with the length its maker counted. -/
structure Piece where
  text : List Char
  length : Nat

structure Output where
  text : List Char
  len : Int

namespace Output

def print (out : Output) (text : List Char) : Output :=
  if 0 < out.len then ⟨out.text ++ snprintf out.len.toNat text,
    out.len - text.length⟩ else out

def copy (out : Output) (piece : Piece) : Output :=
  if piece.length < out.len then
    ⟨out.text ++ piece.text.take piece.length, out.len - piece.length⟩
  else out

/-- The string is given back when nothing but the terminator is missing. -/
def finish (out : Output) (size : Nat) : Option Piece :=
  if out.len = 1 then some ⟨out.text, (size - out.len).toNat⟩ else none

end Output

section Generator

variable [Platform] {δ : Type} [PrintfDouble δ]

/-- The value of an attribute, or what stands for it when it cannot be read. -/
def valueOf (attr : IioAttr) : String := attr.value.getD "ERROR"

def typePrefix : IioAttrType → String
  | .device => ""
  | .debug => "debug-"
  | .buffer => "buffer-"

def getAttrXml2 (type : IioAttrType) (attr : IioAttr) : Piece :=
  let value := valueOf attr
  let len := "<attribute name=\"\" />".length + min attr.name.length Platform.NAME_MAX +
    (typePrefix type).length + " value=\"\"".length + min value.length Platform.NAME_MAX
  ⟨snprintf (len + 1)
    (written ["<", type.nodeName, " name=\"", attr.name, "\" value=\"", value, "\" />"]), len⟩

def getAttrXml (attr : IioChannelAttr) : Piece :=
  let value := valueOf attr.toIioAttr
  let nameLen := min attr.name.length Platform.NAME_MAX + "<attribute name=\"\" />".length
  let filenameLen := match attr.filename with
    | some filename => min filename.length Platform.NAME_MAX + " filename=\"\"".length
    | none => 0
  let len := nameLen + filenameLen + " value=\"\"".length +
    min value.length Platform.NAME_MAX
  let text := match attr.filename with
    | some filename => written ["<attribute name=\"", attr.name,
        "\" filename=\"", filename, "\" value=\"", value, "\" />"]
    | none => written ["<attribute name=\"", attr.name, "\" value=\"", value, "\" />"]
  ⟨snprintf (len + 1) text, len⟩

/-- The letter of the number format; it is a capital one when all bits are defined. -/
def signLetter (format : IioDataFormat δ) : String :=
  match format.isSigned, format.isFullyDefined with
  | true, true => "S"
  | true, false => "s"
  | false, true => "U"
  | false, false => "u"

def repeatText (format : IioDataFormat δ) : List Char :=
  if 1 < format.repeats then snprintf 12 (written ["X",
    toString format.repeats.toNat]) else []

def getScanElement (chn : IioChannel δ) : Piece :=
  let format := chn.format
  let buf := snprintf 1024 (written ["<scan-element index=\"", toString chn.index.toInt,
    "\" format=\"", if format.isBe then "b" else "l", "e:", signLetter format,
    toString format.bits.toNat, "/", toString format.length.toNat,
    String.ofList (repeatText format), "&gt;&gt;", toString format.shift.toNat, "\" />"])
  let str :=
    if format.withScale then
      -- the end of the tag is printed over
      buf.take (buf.length - 2) ++ snprintf (1024 - buf.length + 2)
        (written ["scale=\"", PrintfDouble.fixed format.scale, "\" />"])
    else buf
  ⟨str, str.length⟩

def iioChannelGetXml (chn : IioChannel δ) : Option Piece :=
  let scanElement := if chn.isScanElement then some (getScanElement chn) else none
  let attrs := chn.attrs.map getAttrXml
  let len := "<channel id=\"\" type=\"\" ></channel>".length +
    min chn.id.length Platform.NAME_MAX + (directionName chn.isOutput).length +
    (chn.name.elim 0 fun name => " name=\"\"".length + min name.length Platform.NAME_MAX) +
    scanElement.elim 0 Piece.length + (attrs.map Piece.length).sum + 1
  let out : Output := ⟨[], len⟩
  let out := out.print (written ["<channel id=\"", chn.id, "\""])
  let out := chn.name.elim out fun name => out.print (written [" name=\"", name, "\""])
  let out := out.print (written [" type=\"", directionName chn.isOutput, "\" >"])
  let out := scanElement.elim out out.copy
  let out := attrs.foldl Output.copy out
  let out := out.print (written ["</channel>"])
  out.finish len

def iioDeviceGetXml (dev : IioDevice δ) : Option Piece := do
  let attrs := dev.attrs.map (getAttrXml2 .device)
  let channels ← dev.channels.mapM iioChannelGetXml
  let bufferAttrs := dev.bufferAttrs.map (getAttrXml2 .buffer)
  let debugAttrs := dev.debugAttrs.map (getAttrXml2 .debug)
  let len := "<device id=\"\" ></device>".length + min dev.id.length Platform.NAME_MAX +
    (dev.name.elim 0 fun name => " name=\"\"".length + min name.length Platform.NAME_MAX) +
    (attrs.map Piece.length).sum + (channels.map Piece.length).sum +
    (bufferAttrs.map Piece.length).sum + (debugAttrs.map Piece.length).sum + 1
  let out : Output := ⟨[], len⟩
  let out := out.print (written ["<device id=\"", dev.id, "\""])
  let out := dev.name.elim out fun name => out.print (written [" name=\"", name, "\""])
  let out := out.print (written [" >"])
  let out := channels.foldl Output.copy out
  let out := attrs.foldl Output.copy out
  let out := bufferAttrs.foldl Output.copy out
  let out := debugAttrs.foldl Output.copy out
  let out := out.print (written ["</device>"])
  out.finish len

variable [XmlEncode]

def contextAttributeText (attr : XmlAttribute) : List Char :=
  written ["<context-attribute name=\"", XmlEncode.encodeXmlNdup attr.name, "\" value=\"",
    XmlEncode.encodeXmlNdup attr.value, "\" />"]

def iioContextCreateXml (ctx : IioContext δ) : Option (List Char) := do
  let ctxAttrsLen (attr : XmlAttribute) :=
    min (XmlEncode.encodeXmlNdup attr.name).length Platform.NAME_MAX +
      min (XmlEncode.encodeXmlNdup attr.value).length Platform.PAGESIZE +
      "<context-attribute name=\"\" value=\"\" />".length
  let devices ← ctx.devices.mapM iioDeviceGetXml
  let len := xmlHeader.length + min ctx.name.length Platform.NAME_MAX +
    "<context name=\"\" ></context>".length +
    (ctx.description.elim 0 fun description =>
      min description.length Platform.NAME_MAX + " description=\"\"".length) +
    (ctx.attrs.map ctxAttrsLen).sum + (devices.map Piece.length).sum + 1
  let out : Output := ⟨[], len⟩
  let out := match ctx.description with
    | some description => out.print (written [xmlHeader, "<context name=\"", ctx.name,
        "\" description=\"", description, "\" >"])
    | none => out.print (written [xmlHeader, "<context name=\"", ctx.name, "\" >"])
  let out := ctx.attrs.foldl (fun out attr => out.print (contextAttributeText attr)) out
  let out := devices.foldl Output.copy out
  let out := out.print (written ["</context>"])
  (out.finish len).map Piece.text

end Generator

end IioEmu.GenXml
