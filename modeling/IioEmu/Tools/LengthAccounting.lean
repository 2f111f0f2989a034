import IioEmu.Tools.GeneratedXml

/-! # The lengths counted in advance

The document that is meant is laid out piece by piece in the words of the format calls. The
generator gives it back exactly where the encoded attributes of the context are no longer than
what is counted for them. All other pieces are counted as they are written. -/

namespace IioEmu.GenXml

section Layout

variable {δ : Type} [PrintfDouble δ]

def optionalLayout (opening : String) (value : Option String) : List Char :=
  value.elim [] fun given => written [opening, given, "\""]

def attrLayout (type : IioAttrType) (attr : IioAttr) : List Char :=
  written ["<", typePrefix type, "attribute name=\"", attr.name,
    "\" value=\"", valueOf attr, "\" />"]

def channelAttrLayout (attr : IioChannelAttr) : List Char :=
  written ["<attribute name=\"", attr.name,
    "\""] ++ optionalLayout " filename=\"" attr.filename ++
    written [" value=\"", valueOf attr.toIioAttr, "\" />"]

def scanElementLayout (chn : IioChannel δ) : List Char :=
  written ["<scan-element index=\"", toString chn.index.toInt, "\" format=\"",
      if chn.format.isBe then "b" else "l", "e:", signLetter chn.format,
      toString chn.format.bits.toNat, "/", toString chn.format.length.toNat,
      String.ofList (repeatText chn.format), "&gt;&gt;",
      toString chn.format.shift.toNat, "\""] ++
    optionalLayout " scale=\"" (scaleText chn.format) ++ written [" />"]

def channelLayout (chn : IioChannel δ) : List Char :=
  written ["<channel id=\"", chn.id, "\""] ++ optionalLayout " name=\"" chn.name ++
    written [" type=\"", directionName chn.isOutput, "\" >"] ++
    (if chn.isScanElement then scanElementLayout chn else []) ++
    chn.attrs.flatMap channelAttrLayout ++ written ["</channel>"]

def deviceLayout (dev : IioDevice δ) : List Char :=
  written ["<device id=\"", dev.id, "\""] ++ optionalLayout " name=\"" dev.name ++
    written [" >"] ++ dev.channels.flatMap channelLayout ++
    dev.attrs.flatMap (attrLayout .device) ++ dev.bufferAttrs.flatMap (attrLayout .buffer) ++
    dev.debugAttrs.flatMap (attrLayout .debug) ++ written ["</device>"]

variable [XmlEncode]

def contextLayout (ctx : IioContext δ) : List Char :=
  written [xmlHeader, "<context name=\"", ctx.name, "\""] ++
    optionalLayout " description=\"" ctx.description ++ written [" >"] ++
    ctx.attrs.flatMap contextAttributeText ++ ctx.devices.flatMap deviceLayout ++
    written ["</context>"]

/-! ## The texts are the ones laid out -/

omit [PrintfDouble δ] [XmlEncode] in
theorem attrText_eq_layout (type : IioAttrType) (attr : IioAttr) :
    attrText type attr = attrLayout type attr := by
  rw [attrText_eq, attrLayout]
  cases type <;> simp [written, IioAttrType.nodeName, typePrefix]

omit [PrintfDouble δ] [XmlEncode] in
theorem channelAttrText_eq_layout (attr : IioChannelAttr) :
    channelAttrText attr = channelAttrLayout attr := by
  rw [channelAttrText_eq, channelAttrLayout, optionalLayout]
  cases attr.filename <;> simp [written]

omit [XmlEncode] in
theorem scanElementText_eq_layout (chn : IioChannel δ) :
    (scanElementText chn).getD [] =
      if chn.isScanElement then scanElementLayout chn else [] := by
  rw [scanElementText]
  cases chn.isScanElement with
  | false => rfl
  | true =>
      rw [if_pos rfl, if_pos rfl, Option.getD_some]
      cases scaled : chn.format.withScale <;>
        cases big : chn.format.isBe <;>
          simp [emptyText, Xml.Tag.text, scanElementTag,
            scanElementLayout, optionalLayout, scaleText, scaled, big, formatSpelling,
            formatHead, verbatim, Xml.Spelling.text,
            written]

omit [XmlEncode] in
theorem channelText_eq_layout (chn : IioChannel δ) :
    channelText chn = channelLayout chn := by
  have attrs : chn.attrs.flatMap channelAttrText = chn.attrs.flatMap channelAttrLayout :=
    List.flatMap_congr fun attr _ => channelAttrText_eq_layout attr
  rw [channelText_eq, channelContent, scanElementText_eq_layout, attrs, channelLayout,
    optionalLayout]
  simp only [List.append_assoc]

omit [XmlEncode] in
theorem deviceText_eq_layout (dev : IioDevice δ) : deviceText dev = deviceLayout dev := by
  have channels : dev.channels.flatMap channelText = dev.channels.flatMap channelLayout :=
    List.flatMap_congr fun chn _ => channelText_eq_layout chn
  have attrs (type : IioAttrType) (attrs : List IioAttr) :
      attrsText type attrs = attrs.flatMap (attrLayout type) :=
    List.flatMap_congr fun attr _ => attrText_eq_layout type attr
  rw [deviceText_eq, deviceContent, channels, attrs, attrs, attrs,
    deviceLayout, optionalLayout]
  simp only [List.append_assoc]

theorem contextText_eq_layout (ctx : IioContext δ) :
    contextText ctx ctx.devices = contextLayout ctx := by
  have attrs : ctx.attrs.flatMap contextAttrText =
      ctx.attrs.flatMap contextAttributeText :=
    List.flatMap_congr fun attr _ => (contextAttributeText_eq attr).symm
  have devices : ctx.devices.flatMap deviceText = ctx.devices.flatMap deviceLayout :=
    List.flatMap_congr fun dev _ => deviceText_eq_layout dev
  rw [contextText_eq, attrs, devices, contextLayout, headText, optionalLayout]
  cases ctx.description <;> simp [written]

end Layout

section Accounting

variable [Platform] {δ : Type} [PrintfDouble δ]

theorem iioDeviceGetXml_eq_layout {dev : IioDevice δ}
    (within : dev.All IsShortName IsShortValue) :
    iioDeviceGetXml dev = some (Piece.whole (deviceLayout dev)) := by
  rw [iioDeviceGetXml_eq within, deviceText_eq_layout]

variable [XmlEncode]

theorem fits_of_created {ctx : IioContext δ} (within : ctx.WithinLimits)
    (created : iioContextCreateXml ctx = some (contextLayout ctx)) : ctx.Fits := by
  rcases kept_of_created within created with ⟨_, _, _, size⟩
  rwa [← contextText_eq_layout, counted_eq_iff] at size

/-- What is given back is the whole layout exactly where the encoded attributes fit. -/
theorem created_exactly_iff {ctx : IioContext δ} (within : ctx.WithinLimits) :
    iioContextCreateXml ctx = some (contextLayout ctx) ↔ ctx.Fits := by
  constructor
  · exact fits_of_created within
  · intro fits
    rw [created_of_fits within fits, contextText_eq_layout]

end Accounting

section Examples

open scoped GenXml.Reference

def sampledContext : IioContext Int64 where
  name := "local"
  description := some "Linux"
  attrs := [⟨"local,kernel", "5.4 <arm>"⟩]
  devices := [{
    id := "iio:device0"
    name := some "m2k-adc"
    channels := [{
      id := "voltage0"
      name := none
      isOutput := false
      isScanElement := true
      index := 0
      format := ⟨16, 12, 0, true, false, false, true, 1, 1⟩
      attrs := [⟨⟨"raw", some "5"⟩, some "in_voltage0_raw"⟩,
        ⟨⟨"calibbias", none⟩, none⟩] }]
    attrs := [⟨"oversampling_ratio", some "1"⟩]
    bufferAttrs := [⟨"watermark", some "2048"⟩]
    debugAttrs := [⟨"direct_reg_access", none⟩] }]

theorem withinLimits_sampledContext : sampledContext.WithinLimits := by
  have name (text : String) (short : text.length ≤ 255) : IsShortName text := short
  have value (text : String) (short : text.length < 100) : IsShortValue text := short
  have attr (attr : IioAttr) (named : attr.name.length ≤ 255)
      (valued : ∀ text ∈ attr.value, text.length < 100) :
        attr.All IsShortName IsShortValue :=
    ⟨named, valued⟩
  refine ⟨⟨name _ (by decide), ?_, ?_⟩, ?_⟩
  · rintro _ ⟨⟩
    exact name _ (by decide)
  · simp only [sampledContext, List.forall_mem_singleton]
    refine ⟨name _ (by decide), ?_, ?_, ?_, ?_, ?_⟩
    · rintro _ ⟨⟩
      exact name _ (by decide)
    · simp only [List.forall_mem_singleton]
      refine ⟨name _ (by decide), by simp, ?_⟩
      simp only [List.forall_mem_cons]
      refine ⟨⟨?_, attr _ (by decide) (by decide)⟩,
        ⟨by simp, attr _ (by decide) (by decide)⟩, by simp⟩
      rintro _ ⟨⟩
      exact name _ (by decide)
    · simp only [List.forall_mem_singleton]
      exact attr _ (by decide) (by decide)
    · simp only [List.forall_mem_singleton]
      exact attr _ (by decide) (by decide)
    · simp only [List.forall_mem_singleton]
      exact attr _ (by decide) (by decide)
  · simp only [sampledContext, List.forall_mem_singleton]
    decide

theorem fits_sampledContext : sampledContext.Fits := fits_described

theorem sampledContext_is_created_exactly :
    sampledContext.WithinLimits ∧ sampledContext.Fits ∧
      iioContextCreateXml sampledContext = some (contextLayout sampledContext) :=
  ⟨withinLimits_sampledContext, fits_sampledContext,
    (created_exactly_iff withinLimits_sampledContext).mpr fits_sampledContext⟩

def lessThans (count : Nat) : String := String.ofList (List.replicate count '<')

theorem length_lessThans (count : Nat) : (lessThans count).length = count := by
  rw [lessThans, String.length_ofList, List.length_replicate]

theorem length_encodeXmlNdup_lessThans (count : Nat) :
    (XmlEncode.encodeXmlNdup (lessThans count)).length = 4 * count := by
  have encodedAs : XmlEncode.encodeXmlNdup (lessThans count) =
      String.ofList ((lessThans count).toList.flatMap (encodeEntity ['"'])) := rfl
  rw [encodedAs, String.length_ofList, lessThans, String.toList_ofList,
    List.length_flatMap, List.map_replicate, List.sum_replicate_nat]
  exact Nat.mul_comm _ _

def namedBy (name : String) : IioContext Int64 := ⟨"local", none, [⟨name, "1"⟩], []⟩

theorem withinLimits_namedBy {name : String} (short : name.length ≤ 255) :
    (namedBy name).WithinLimits := by
  refine ⟨⟨?_, by simp [namedBy], by simp [namedBy]⟩, ?_⟩
  · change "local".length ≤ 255
    decide
  · simp only [namedBy, List.forall_mem_singleton]
    constructor
    · exact short
    · change "1".length ≤ 4096
      decide

theorem not_created_of_long {name : String} (short : name.length ≤ 255)
    (long : 255 < (XmlEncode.encodeXmlNdup name).length) :
    iioContextCreateXml (namedBy name) = none := by
  have within := withinLimits_namedBy short
  cases created : iioContextCreateXml (namedBy name) with
  | none => rfl
  | some text =>
      rcases kept_of_created within created with ⟨kept, isKept, equal, size⟩
      have none : kept = (namedBy name).devices := List.sublist_nil.mp isKept
      rw [equal, none, counted_eq_iff] at size
      have fits := (size _ (List.mem_singleton_self _)).1
      exact absurd fits (Nat.not_le.mpr long)

/-- A name of 64 characters that are to be escaped is within the limits, but nothing is given
back for it. -/
theorem escaped_name_is_not_created :
    (namedBy (lessThans 64)).WithinLimits ∧
    iioContextCreateXml (namedBy (lessThans 64)) = none := by
  have short : (lessThans 64).length ≤ 255 := by
    have length := length_lessThans 64
    omega
  have long : 255 < (XmlEncode.encodeXmlNdup (lessThans 64)).length := by
    have length := length_encodeXmlNdup_lessThans 64
    omega
  exact ⟨withinLimits_namedBy short, not_created_of_long short long⟩

end Examples

end IioEmu.GenXml
