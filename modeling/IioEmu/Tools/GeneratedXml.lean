import IioEmu.Tools.GeneratedText
import IioEmu.Utils.SerialisedXml
import IioEmu.Xml.Transcript

/-! # What the generated document reads as

Strings are written as they are, apart from the attributes of the context itself. The document
therefore reads as the tree of the context exactly when no string needs a reference and the
encoded attributes fit into the room that is counted for them. -/

namespace IioEmu.GenXml

open Xml

/-! ## Strings -/

def Printable (text : String) : Prop := ∀ c ∈ text.toList, isPrint c = true

def NeedsNoEscape (text : String) : Prop := ∀ c ∈ text.toList, c ≠ '<' ∧ c ≠ '&' ∧ c ≠ '"'

theorem isRaw_of_isPrint {c : Char} (printable : isPrint c = true) : IsRaw c := by
  have code : 32 ≤ c.toNat ∧ c.toNat ≤ 126 := by simpa [isPrint] using printable
  constructor
  · have upper : c.toNat ≤ 0xD7FF := by omega
    simp [isChar, code.1, upper]
  · intro white
    rcases isWhite_iff.mp white with rfl | rfl | rfl | rfl
    · rfl
    all_goals exact absurd code.1 (by decide)

theorem isPlain_iff_of_isPrint {c : Char} (printable : isPrint c = true) :
    IsPlain c ↔ c ≠ '<' ∧ c ≠ '&' ∧ c ≠ '"' := by
  have raw := isRaw_of_isPrint printable
  constructor
  · rintro ⟨_, noQuote, noTag, noReference, _⟩
    exact ⟨noTag, noReference, noQuote⟩
  · rintro ⟨noTag, noReference, noQuote⟩
    exact ⟨raw.1, noQuote, noTag, noReference, raw.2⟩

theorem isPlain_of_isNameChar {c : Char} (named : isNameChar c = true) : IsPlain c := by
  refine ⟨isChar_of_isNameChar named, ?_, ?_, ?_, ?_⟩
  · exact ne_of_isNameChar named (by decide)
  · exact ne_of_isNameChar named (by decide)
  · exact ne_of_isNameChar named (by decide)
  · intro white
    rw [isNameChar_of_isWhite white] at named
    cases named

/-! ## Values written as they are -/

theorem fair_verbatim (property : XmlAttribute) : (verbatim property).Fair := by
  rw [Spelling.Fair, verbatim, ← String.length_toList]
  exact spends_length _

theorem honest_verbatim {property : XmlAttribute} (named : IsName property.name.toList)
    (printable : Printable property.value) :
    Honest (verbatim property) (NeedsNoEscape property.value) := by
  have same : NeedsNoEscape property.value ↔ ∀ c ∈ property.value.toList, IsPlain c := by
    apply forall_congr'
    intro c
    apply forall_congr'
    intro member
    exact (isPlain_iff_of_isPrint (printable c member)).symm
  rw [same]
  exact honest_raw named fun c member => isRaw_of_isPrint (printable c member)

structure Presentable (element : XmlElement) : Prop where
  named : IsName element.name.toList
  notText : element.name ≠ "text"
  properties : ∀ property ∈ element.properties,
    IsName property.name.toList ∧ Printable property.value
  distinct : (element.properties.map XmlAttribute.name).Nodup
  empty : element.content = ""

def NoEscapes (element : XmlElement) : Prop :=
  ∀ property ∈ element.properties, NeedsNoEscape property.value

theorem noEscapes_iff (element : XmlElement) :
    (∀ spelling ∈ (verbatimTag element).spellings,
      NeedsNoEscape spelling.property.value) ↔
      NoEscapes element := by
  rw [verbatimTag, List.forall_mem_map]
  rfl

section Verbatim

variable {element : XmlElement} (presentable : Presentable element)

include presentable

theorem element_verbatimTag : (verbatimTag element).element = element := by
  have properties : (element.properties.map verbatim).map Spelling.property =
      element.properties := by
    rw [List.map_map]
    exact List.map_id _
  rw [Tag.element, verbatimTag, properties, ← presentable.empty]

theorem honestTag_verbatim :
    HonestTag (verbatimTag element) fun spelling =>
      NeedsNoEscape spelling.property.value where
  named := presentable.named
  notText := presentable.notText
  honest := by
    rw [verbatimTag, List.forall_mem_map]
    intro property member
    have valid := presentable.properties property member
    exact honest_verbatim valid.1 valid.2
  distinct := by
    rw [element_verbatimTag presentable]
    exact presentable.distinct

theorem transcribes_verbatim :
    Transcribes (emptyText (verbatimTag element))
    [.node element []] (NoEscapes element) := by
  have read := transcribesElement_empty (honestTag_verbatim presentable)
  rw [element_verbatimTag presentable, noEscapes_iff element] at read
  exact transcribes_element read

theorem transcribes_verbatim_content {text : List Char}
    {nodes : List XmlNode} {Clean : Prop} (content : Transcribes text nodes Clean) :
    TranscribesElement
      ((verbatimTag element).text ++ [' '] ++ '>' :: text ++
        '<' :: '/' :: (verbatimTag element).name.toList ++ ['>'])
      (.node element nodes) (NoEscapes element ∧ Clean) := by
  have read := transcribesElement_content (honestTag_verbatim presentable) content
  rwa [element_verbatimTag presentable, noEscapes_iff element] at read

end Verbatim

/-! ## Scan elements -/

theorem spells_append {first second value rest : List Char} (spells : Spells first value)
    (next : Spells second rest) : Spells (first ++ second) (value ++ rest) := by
  intro state tag name read
  rw [run_append_of_some (spells state tag name read), next, List.append_assoc]

theorem isNameChar_of_isDigit {c : Char} (digit : c.isDigit = true) :
    isNameChar c = true := by
  simp [isNameChar, digit]

theorem isNameChar_of_mem_repr {value : Nat} {c : Char} (member : c ∈ value.repr.toList) :
    isNameChar c = true := by
  rw [Nat.toList_repr] at member
  exact isNameChar_of_isDigit (Nat.isDigit_of_mem_toDigits (by decide) (by decide) member)

theorem isNameChar_of_mem_toString {value : Int} {c : Char}
    (member : c ∈ (toString value).toList) : isNameChar c = true := by
  rw [Int.toString_eq_repr, Int.repr_eq_if] at member
  split at member
  case isTrue => exact isNameChar_of_mem_repr member
  case isFalse =>
    rw [String.toList_append, List.mem_append] at member
    cases member with
    | inl sign =>
        simp only [String.reduceToList, List.mem_singleton] at sign
        rw [sign]
        decide
    | inr digits => exact isNameChar_of_mem_repr digits

section ScanElements

variable {δ : Type}

theorem isNameChar_of_mem_repeatText {format : IioDataFormat δ} {c : Char}
    (member : c ∈ repeatText format) : isNameChar c = true := by
  rw [repeatText] at member
  split at member
  case isTrue =>
    have inText := List.mem_of_mem_take member
    simp only [written, List.flatMap_cons, List.flatMap_nil,
      List.append_nil, List.mem_append, String.reduceToList, List.mem_singleton] at inText
    rcases inText with rfl | digits
    · decide
    · exact isNameChar_of_mem_repr digits
  case isFalse => cases member

theorem isPlain_formatHead (format : IioDataFormat δ) :
    ∀ c ∈ formatHead format, IsPlain c := by
  have endian : ∀ c ∈ if format.isBe then ['b'] else ['l'], IsPlain c := by
    split <;> decide
  have sign : ∀ c ∈ (signLetter format).toList, IsPlain c := by
    rw [signLetter]
    split <;> decide
  have digits (value : UInt32) : ∀ c ∈ value.toNat.repr.toList, IsPlain c :=
    fun _ member => isPlain_of_isNameChar (isNameChar_of_mem_repr member)
  have repeats : ∀ c ∈ repeatText format, IsPlain c :=
    fun _ member => isPlain_of_isNameChar (isNameChar_of_mem_repeatText member)
  simp only [formatHead, List.forall_mem_append, List.forall_mem_cons]
  exact ⟨⟨⟨⟨⟨endian, by decide, by decide, by simp⟩, sign⟩, digits _⟩,
    by decide, digits _⟩, repeats⟩

theorem return_not_mem_of_isPlain {text : List Char} (plain : ∀ c ∈ text, IsPlain c) :
    '\r' ∉ text := by
  intro member
  exact absurd ((plain '\r' member).2.2.2.2 rfl) (by decide)

theorem honest_of_isPlain {property : XmlAttribute} (named : IsName property.name.toList)
    (plain : ∀ c ∈ property.value.toList, IsPlain c) : Honest (verbatim property) True :=
  honest_of_spells ⟨named, spells_self plain⟩ (return_not_mem_of_isPlain plain)
    (fair_verbatim property)

theorem honest_format (format : IioDataFormat δ) :
    Honest (formatSpelling format) True := by
  have shift : ∀ c ∈ format.shift.toNat.repr.toList, IsPlain c :=
    fun _ member => isPlain_of_isNameChar (isNameChar_of_mem_repr member)
  have greater : Spells ['&', 'g', 't', ';'] ['>'] :=
    spells_reference ['g', 't'] (by decide) rfl
  have head := isPlain_formatHead format
  have freeHead := return_not_mem_of_isPlain head
  have freeShift := return_not_mem_of_isPlain shift
  have spells := spells_append (spells_append (spells_self head)
    (spells_append greater greater)) (spells_self shift)
  have named : IsName "format".toList := by decide
  apply honest_of_spells
  · exact ⟨named, by simpa [formatSpelling, formatText] using spells⟩
  · simp only [formatSpelling, List.mem_append, freeHead, freeShift]
    decide
  · have greaterSpends : Spends ['&', 'g', 't', ';'] 1 :=
    spends_reference ['g', 't'] (by decide)
    have spends := ((spends_length (formatHead format)).append
      (greaterSpends.append greaterSpends)).append
      (spends_length format.shift.toNat.repr.toList)
    have length : (formatSpelling format).property.value.length =
        (formatHead format).length + (1 + 1) + format.shift.toNat.repr.toList.length := by
      rw [formatSpelling, formatText, String.length_ofList, List.length_append,
        List.length_append]
      rfl
    rw [Spelling.Fair, length]
    simpa [formatSpelling] using spends

variable [PrintfDouble δ]

theorem element_scanElementTag (chn : IioChannel δ) :
    (scanElementTag chn).element = scanElement chn := by
  cases scale : scaleText chn.format <;>
    simp [Tag.element, scanElementTag, scanElement, scale, verbatim, formatSpelling]

theorem honestTag_scanElement (chn : IioChannel δ) :
    HonestTag (scanElementTag chn) fun _ => True where
  named := show IsName "scan-element".toList by decide
  notText := show "scan-element" ≠ "text" by decide
  honest := by
    have namedIndex : IsName "index".toList := by decide
    have namedScale : IsName "scale".toList := by decide
    have index : ∀ c ∈ (toString chn.index.toInt).toList, IsPlain c :=
      fun _ member => isPlain_of_isNameChar (isNameChar_of_mem_toString member)
    have scale : ∀ text ∈ scaleText chn.format, ∀ c ∈ text.toList, IsPlain c := by
      intro text given c member
      rw [Option.mem_def, scaleText, Option.ite_none_right_eq_some,
        Option.some.injEq] at given
      rcases given with ⟨_, rfl⟩
      exact isPlain_of_isNameChar (PrintfDouble.named _ c member)
    simp only [scanElementTag, List.forall_mem_cons,
      List.forall_mem_map, Option.mem_toList]
    exact ⟨honest_of_isPlain namedIndex index, honest_format chn.format,
      fun text given => honest_of_isPlain namedScale (scale text given)⟩
  distinct := by
    rw [element_scanElementTag, scanElement]
    cases scaleText chn.format <;> simp

theorem transcribes_scanElement (chn : IioChannel δ) :
    Transcribes ((scanElementText chn).getD []) (scanElementNodes chn) True := by
  rw [scanElementText, scanElementNodes]
  split
  · have read := transcribesElement_empty (honestTag_scanElement chn)
    simp only [element_scanElementTag, implies_true] at read
    exact transcribes_element read
  · exact transcribes_nil

end ScanElements

/-! ## Encoded values -/

section Encoded

variable [XmlEncode]

open XmlEncode (quotation)

def QuotesEncoded (text : String) : Prop := quotation = ['"'] → '"' ∉ text.toList

theorem spells_encodeEntity {c : Char} (printable : isPrint c = true)
    (quotes : c = '"' → quotation ≠ ['"']) : Spells (encodeEntity quotation c) [c] := by
  rw [encodeEntity]
  split
  case isTrue less =>
    subst less
    exact spells_reference ['l', 't'] (by decide) rfl
  case isFalse noTag =>
    split
    case isTrue greater =>
      subst greater
      exact spells_reference ['g', 't'] (by decide) rfl
    case isFalse =>
      split
      case isTrue ampersand =>
        subst ampersand
        exact spells_reference ['a', 'm', 'p'] (by decide) rfl
      case isFalse noReference =>
        split
        case isTrue quote =>
          rw [XmlEncode.quotation_eq.resolve_left (quotes quote), quote]
          exact spells_reference ['q', 'u', 'o', 't'] (by decide) rfl
        case isFalse noQuote =>
          exact spells_plain ((isPlain_iff_of_isPrint printable).mpr ⟨noTag,
            noReference, noQuote⟩)

theorem spends_encodeEntity (c : Char) : Spends (encodeEntity quotation c) 1 := by
  rw [encodeEntity]
  repeat' split
  · exact spends_reference ['l', 't'] (by decide)
  · exact spends_reference ['g', 't'] (by decide)
  · exact spends_reference ['a', 'm', 'p'] (by decide)
  · rcases XmlEncode.quotation_eq with mark | encoded
    · rw [mark]
      exact spends_length ['"']
    · rw [encoded]
      exact spends_reference ['q', 'u', 'o', 't'] (by decide)
  · exact spends_length [c]

theorem return_not_mem_encodeEntity {c : Char} (printable : isPrint c = true) :
    '\r' ∉ encodeEntity quotation c := by
  have noReturn : '\r' ≠ c := by
    rintro rfl
    cases printable
  have quotes : '\r' ∉ quotation := by
    rcases XmlEncode.quotation_eq with mark | reference
    · rw [mark]
      decide
    · rw [reference]
      decide
  rw [encodeEntity]
  repeat' split
  · decide
  · decide
  · decide
  · exact quotes
  · simpa using noReturn

theorem honest_encoded {property : XmlAttribute} (named : IsName property.name.toList)
    (printable : Printable property.value) :
    Honest (encoded property) (QuotesEncoded property.value) where
  named := named
  free := by
    rw [encoded, XmlEncode.encoded _ printable, List.mem_flatMap]
    rintro ⟨c, member, inside⟩
    exact return_not_mem_encodeEntity (printable c member) inside
  fair := by
    rw [Spelling.Fair, encoded, XmlEncode.encoded _ printable, ← String.length_toList]
    exact spends_flatMap fun c _ => spends_encodeEntity c
  spells quotesEncoded := by
    rw [encoded, XmlEncode.encoded _ printable]
    apply spells_flatMap
    intro c member
    apply spells_encodeEntity (printable c member)
    rintro rfl left
    exact quotesEncoded left member
  told state tag name rest final ran := by
    by_cases quotesEncoded : QuotesEncoded property.value
    · exact Or.inl quotesEncoded
    · apply Or.inr
      rw [QuotesEncoded, Classical.not_imp, Classical.not_not] at quotesEncoded
      rcases quotesEncoded with ⟨left, quote⟩
      -- the value is read up to its first quotation mark
      rcases List.eq_append_cons_of_mem quote with ⟨before, after, parts, first⟩
      have spells : Spells (before.flatMap (encodeEntity quotation)) before := by
        apply spells_flatMap
        intro c member
        apply spells_encodeEntity (printable c (by simp [parts, member]))
        rintro rfl
        exact absurd member first
      have mark : encodeEntity quotation '"' = ['"'] := by
        rw [left]
        rfl
      rw [encoded, XmlEncode.encoded _ printable, parts,
        List.flatMap_append, List.flatMap_cons, mark, List.append_assoc,
        run_append_of_some (spells state tag name [])] at ran
      refine ⟨before, _, ?_, ran⟩
      intro same
      rw [same] at parts
      simpa [encoded] using congrArg List.length parts

def QuotesEncodedIn (element : XmlElement) : Prop :=
  ∀ property ∈ element.properties, QuotesEncoded property.value

theorem transcribes_encoded {element : XmlElement} (presentable : Presentable element) :
    Transcribes (emptyText (encodedTag element)) [.node element []]
      (QuotesEncodedIn element) := by
  have properties : (element.properties.map encoded).map Spelling.property =
      element.properties := by
    rw [List.map_map]
    exact List.map_id _
  have same : (encodedTag element).element = element := by
    rw [Tag.element, encodedTag, properties, ← presentable.empty]
  have honestTag : HonestTag (encodedTag element)
      fun spelling => QuotesEncoded spelling.property.value := by
    refine ⟨presentable.named, presentable.notText, ?_, ?_⟩
    · rw [encodedTag, List.forall_mem_map]
      intro property member
      have valid := presentable.properties property member
      exact honest_encoded valid.1 valid.2
    · rw [same]
      exact presentable.distinct
  have read := transcribesElement_empty honestTag
  rw [same, encodedTag, List.forall_mem_map] at read
  exact transcribes_element read

end Encoded

/-! ## The document -/

section Presentable

variable {δ : Type}

theorem printable_valueOf {attr : IioAttr} (printable : attr.All Printable Printable) :
    Printable (valueOf attr) := by
  rw [valueOf]
  cases given : attr.value with
  | none =>
      rw [Option.getD_none, Printable]
      decide
  | some value => exact printable.value value given

theorem needsNoEscape_valueOf_iff (attr : IioAttr) :
    NeedsNoEscape (valueOf attr) ↔ ∀ value ∈ attr.value, NeedsNoEscape value := by
  rw [valueOf]
  cases attr.value with
  | none =>
      have error : NeedsNoEscape "ERROR" := by
        rw [NeedsNoEscape]
        decide
      simpa using error
  | some value => simp

theorem isName_nodeName (type : IioAttrType) :
    IsName type.nodeName.toList ∧ type.nodeName ≠ "text" := by
  cases type <;> decide

theorem presentable_attr (type : IioAttrType) {attr : IioAttr}
    (printable : attr.All Printable Printable) : Presentable (attrElement type attr) where
  named := (isName_nodeName type).1
  notText := (isName_nodeName type).2
  properties := by
    have name : IsName "name".toList := by decide
    have value : IsName "value".toList := by decide
    simp only [attrElement, List.forall_mem_cons, List.not_mem_nil,
      false_implies, implies_true]
    exact ⟨⟨name, printable.name⟩, ⟨value, printable_valueOf printable⟩, trivial⟩
  distinct := by simp [attrElement]
  empty := rfl

theorem presentable_channelAttr {attr : IioChannelAttr}
    (printable : attr.All Printable Printable) :
    Presentable (channelAttrElement attr) where
  named := show IsName "attribute".toList by decide
  notText := show "attribute" ≠ "text" by decide
  properties := by
    have name : IsName "name".toList := by decide
    have filename : IsName "filename".toList := by decide
    have value : IsName "value".toList := by decide
    simp only [channelAttrElement, List.forall_mem_cons, List.forall_mem_append,
      List.forall_mem_map, Option.mem_toList, List.not_mem_nil,
      false_implies, implies_true]
    exact ⟨⟨name, printable.attr.name⟩,
      fun given member => ⟨filename, printable.filename given member⟩,
      ⟨value, printable_valueOf printable.attr⟩, trivial⟩
  distinct := by cases named : attr.filename <;> simp [channelAttrElement, named]
  empty := rfl

theorem printable_directionName (chOut : Bool) : Printable (directionName chOut) := by
  cases chOut <;> (rw [Printable]; decide)

theorem presentable_channel {chn : IioChannel δ}
    (printable : chn.All Printable Printable) :
    Presentable (channelElement chn) where
  named := show IsName "channel".toList by decide
  notText := show "channel" ≠ "text" by decide
  properties := by
    have id : IsName "id".toList := by decide
    have name : IsName "name".toList := by decide
    have type : IsName "type".toList := by decide
    simp only [channelElement, List.forall_mem_cons, List.forall_mem_append,
      List.forall_mem_map, Option.mem_toList, List.not_mem_nil,
      false_implies, implies_true]
    exact ⟨⟨id, printable.id⟩, fun given member => ⟨name, printable.name given member⟩,
      ⟨type, printable_directionName chn.isOutput⟩, trivial⟩
  distinct := by cases named : chn.name <;> simp [channelElement, named]
  empty := rfl

theorem presentable_device {dev : IioDevice δ} (printable : dev.All Printable Printable) :
    Presentable (deviceElement dev) where
  named := show IsName "device".toList by decide
  notText := show "device" ≠ "text" by decide
  properties := by
    have id : IsName "id".toList := by decide
    have name : IsName "name".toList := by decide
    simp only [deviceElement, List.forall_mem_cons,
      List.forall_mem_map, Option.mem_toList]
    exact ⟨⟨id, printable.id⟩, fun given member => ⟨name, printable.name given member⟩⟩
  distinct := by cases named : dev.name <;> simp [deviceElement, named]
  empty := rfl

theorem presentable_contextAttr {attr : XmlAttribute}
    (printable : Printable attr.name ∧ Printable attr.value) :
    Presentable (contextAttrElement attr) where
  named := show IsName "context-attribute".toList by decide
  notText := show "context-attribute" ≠ "text" by decide
  properties := by
    have name : IsName "name".toList := by decide
    have value : IsName "value".toList := by decide
    simp only [contextAttrElement, List.forall_mem_cons, List.not_mem_nil, false_implies,
      implies_true]
    exact ⟨⟨name, printable.1⟩, ⟨value, printable.2⟩, trivial⟩
  distinct := by simp [contextAttrElement]
  empty := rfl

theorem presentable_context {ctx : IioContext δ}
    (printable : ctx.All Printable Printable) :
    Presentable (contextElement ctx) where
  named := show IsName "context".toList by decide
  notText := show "context" ≠ "text" by decide
  properties := by
    have name : IsName "name".toList := by decide
    have description : IsName "description".toList := by decide
    simp only [contextElement, List.forall_mem_cons,
      List.forall_mem_map, Option.mem_toList]
    exact ⟨⟨name, printable.name⟩,
      fun given member => ⟨description, printable.description given member⟩⟩
  distinct := by cases described : ctx.description <;> simp [contextElement, described]
  empty := rfl

end Presentable

section Unescaped

variable {δ : Type}

theorem noEscapes_attr_iff (type : IioAttrType) (attr : IioAttr) :
    NoEscapes (attrElement type attr) ↔ attr.All NeedsNoEscape NeedsNoEscape := by
  simp only [NoEscapes, attrElement, List.forall_mem_cons,
    List.not_mem_nil, false_implies, implies_true, and_true, needsNoEscape_valueOf_iff]
  exact ⟨fun clean => ⟨clean.1, clean.2⟩, fun clean => ⟨clean.name, clean.value⟩⟩

theorem noEscapes_channelAttr_iff (attr : IioChannelAttr) :
    NoEscapes (channelAttrElement attr) ↔ attr.All NeedsNoEscape NeedsNoEscape := by
  simp only [NoEscapes, channelAttrElement, List.forall_mem_cons, List.forall_mem_append,
    List.forall_mem_map, Option.mem_toList, List.not_mem_nil, false_implies, implies_true,
    and_true, needsNoEscape_valueOf_iff]
  exact ⟨fun clean => ⟨clean.2.1, clean.1, clean.2.2⟩,
    fun clean => ⟨clean.attr.name, clean.filename, clean.attr.value⟩⟩

theorem noEscapes_channel_iff (chn : IioChannel δ) :
    NoEscapes (channelElement chn) ↔
      NeedsNoEscape chn.id ∧ ∀ name ∈ chn.name, NeedsNoEscape name := by
  have direction : NeedsNoEscape (directionName chn.isOutput) := by
    cases chn.isOutput <;> (rw [NeedsNoEscape]; decide)
  simp only [NoEscapes, channelElement, List.forall_mem_cons, List.forall_mem_append,
    List.forall_mem_map, Option.mem_toList, List.not_mem_nil, false_implies, implies_true,
    and_true, direction, Option.mem_def]

theorem noEscapes_device_iff (dev : IioDevice δ) :
    NoEscapes (deviceElement dev) ↔
      NeedsNoEscape dev.id ∧ ∀ name ∈ dev.name, NeedsNoEscape name := by
  simp only [NoEscapes, deviceElement, List.forall_mem_cons, List.forall_mem_map,
    Option.mem_toList, Option.mem_def]

theorem noEscapes_context_iff (ctx : IioContext δ) :
    NoEscapes (contextElement ctx) ↔ NeedsNoEscape ctx.name ∧
      ∀ description ∈ ctx.description, NeedsNoEscape description := by
  simp only [NoEscapes, contextElement, List.forall_mem_cons, List.forall_mem_map,
    Option.mem_toList, Option.mem_def]

variable [PrintfDouble δ]

theorem transcribes_attrs (type : IioAttrType) {attrs : List IioAttr}
    (printable : ∀ attr ∈ attrs, attr.All Printable Printable) :
    Transcribes (attrsText type attrs) (attrs.map (attrNode type))
      (∀ attr ∈ attrs, attr.All NeedsNoEscape NeedsNoEscape) := by
  apply transcribes_flatMap
  intro attr member
  rw [← noEscapes_attr_iff type]
  exact transcribes_verbatim (presentable_attr type (printable attr member))

theorem transcribes_channel {chn : IioChannel δ}
    (printable : chn.All Printable Printable) :
    Transcribes (channelText chn)
    [channelNode chn] (chn.All NeedsNoEscape NeedsNoEscape) := by
  have attrs :
      Transcribes (chn.attrs.flatMap channelAttrText) (chn.attrs.map channelAttrNode)
      (∀ attr ∈ chn.attrs, attr.All NeedsNoEscape NeedsNoEscape) := by
    apply transcribes_flatMap
    intro attr member
    rw [← noEscapes_channelAttr_iff]
    exact transcribes_verbatim (presentable_channelAttr (printable.attrs attr member))
  have content := (transcribes_scanElement chn).append attrs
  have read := transcribes_element
    (transcribes_verbatim_content (presentable_channel printable) content)
  have same : NoEscapes (channelElement chn) ∧ True ∧
      (∀ attr ∈ chn.attrs, attr.All NeedsNoEscape NeedsNoEscape) ↔
        chn.All NeedsNoEscape NeedsNoEscape := by
    rw [noEscapes_channel_iff, true_and]
    exact ⟨fun clean => ⟨clean.1.1, clean.1.2, clean.2⟩,
      fun clean => ⟨⟨clean.id, clean.name⟩, clean.attrs⟩⟩
  rwa [same] at read

theorem transcribes_device {dev : IioDevice δ} (printable : dev.All Printable Printable) :
    Transcribes (deviceText dev)
    [deviceNode dev] (dev.All NeedsNoEscape NeedsNoEscape) := by
  have channels :
      Transcribes (dev.channels.flatMap channelText) (dev.channels.map channelNode)
      (∀ chn ∈ dev.channels, chn.All NeedsNoEscape NeedsNoEscape) :=
    transcribes_flatMap fun chn member => transcribes_channel (printable.channels chn member)
  have content := ((channels.append (transcribes_attrs .device printable.attrs)).append
    (transcribes_attrs .buffer printable.bufferAttrs)).append
    (transcribes_attrs .debug printable.debugAttrs)
  have read := transcribes_element
    (transcribes_verbatim_content (presentable_device printable) content)
  have same : NoEscapes (deviceElement dev) ∧
      (((∀ chn ∈ dev.channels, chn.All NeedsNoEscape NeedsNoEscape) ∧
        ∀ attr ∈ dev.attrs, attr.All NeedsNoEscape NeedsNoEscape) ∧
        ∀ attr ∈ dev.bufferAttrs, attr.All NeedsNoEscape NeedsNoEscape) ∧
        (∀ attr ∈ dev.debugAttrs, attr.All NeedsNoEscape NeedsNoEscape) ↔
        dev.All NeedsNoEscape NeedsNoEscape := by
    rw [noEscapes_device_iff]
    constructor
    · rintro ⟨⟨id, name⟩, ⟨⟨channels, attrs⟩, bufferAttrs⟩, debugAttrs⟩
      exact ⟨id, name, channels, attrs, bufferAttrs, debugAttrs⟩
    · rintro ⟨id, name, channels, attrs, bufferAttrs, debugAttrs⟩
      exact ⟨⟨id, name⟩, ⟨⟨channels, attrs⟩, bufferAttrs⟩, debugAttrs⟩
  rwa [same] at read

end Unescaped

/-! ## The header -/

theorem spelled_append {first second : String} {chars others : List Char}
    (spelled : first = String.ofList chars) (next : second = String.ofList others) :
    first ++ second = String.ofList (chars ++ others) := by
  rw [spelled, next, String.ofList_append]

set_option maxRecDepth 20000 in
theorem checked_xmlHeader :
    (run start xmlHeader.toList).any atStart = true ∧ '\r' ∉ xmlHeader.toList := by
  apply @holds_toList xmlHeader _ ?_
    (fun chars => (run start chars).any atStart = true ∧ '\r' ∉ chars)
  rotate_right
  · unfold xmlHeader
    repeat' apply spelled_append
    all_goals rfl
  · decide +kernel

theorem isProlog_xmlHeader : IsProlog xmlHeader.toList :=
  isProlog_of_checked checked_xmlHeader.1

section Documents

variable [XmlEncode] {δ : Type} [PrintfDouble δ]

structure IioContext.Printable (ctx : IioContext δ) : Prop where
  strings : ctx.All GenXml.Printable GenXml.Printable
  attrs : ∀ attr ∈ ctx.attrs, GenXml.Printable attr.name ∧ GenXml.Printable attr.value

structure IioContext.Plain (ctx : IioContext δ) : Prop where
  strings : ctx.All NeedsNoEscape NeedsNoEscape
  attrs : ∀ attr ∈ ctx.attrs, QuotesEncoded attr.name ∧ QuotesEncoded attr.value

def CleanWith (ctx : IioContext δ) (devices : List (IioDevice δ)) : Prop :=
  NoEscapes (contextElement ctx) ∧
    (∀ attr ∈ ctx.attrs, QuotesEncodedIn (contextAttrElement attr)) ∧
    ∀ dev ∈ devices, dev.All NeedsNoEscape NeedsNoEscape

omit [PrintfDouble δ] in
theorem cleanWith_all_iff (ctx : IioContext δ) :
    CleanWith ctx ctx.devices ↔ ctx.Plain := by
  have attrs (attr : XmlAttribute) : QuotesEncodedIn (contextAttrElement attr) ↔
      QuotesEncoded attr.name ∧ QuotesEncoded attr.value := by
    simp [QuotesEncodedIn, contextAttrElement]
  simp only [CleanWith, noEscapes_context_iff, attrs]
  constructor
  · rintro ⟨⟨name, description⟩, attrs, devices⟩
    exact ⟨⟨name, description, devices⟩, attrs⟩
  · rintro ⟨⟨name, description, devices⟩, attrs⟩
    exact ⟨⟨name, description⟩, attrs, devices⟩

theorem transcribes_context {ctx : IioContext δ} (printable : ctx.Printable)
    {devices : List (IioDevice δ)} (kept : ∀ dev ∈ devices, dev ∈ ctx.devices) :
    ∃ text, contextText ctx devices = xmlHeader.toList ++ '<' :: text ∧
      TranscribesElement text (contextTree ctx devices) (CleanWith ctx devices) := by
  have attrs :
      Transcribes (ctx.attrs.flatMap contextAttrText) (ctx.attrs.map contextAttrNode)
      (∀ attr ∈ ctx.attrs, QuotesEncodedIn (contextAttrElement attr)) :=
    transcribes_flatMap fun attr member =>
      transcribes_encoded (presentable_contextAttr (printable.attrs attr member))
  have content : Transcribes (devices.flatMap deviceText) (devices.map deviceNode)
      (∀ dev ∈ devices, dev.All NeedsNoEscape NeedsNoEscape) :=
    transcribes_flatMap fun dev member =>
      transcribes_device (printable.strings.devices dev (kept dev member))
  exact ⟨_, rfl, transcribes_verbatim_content (presentable_context printable.strings)
    (attrs.append content)⟩

theorem parse_contextText {ctx : IioContext δ} (printable : ctx.Printable)
    {devices : List (IioDevice δ)} (kept : ∀ dev ∈ devices, dev ∈ ctx.devices)
    (clean : CleanWith ctx devices) :
    parse (contextText ctx devices) = some (contextTree ctx devices) := by
  rcases transcribes_context printable kept with ⟨text, parts, transcribes⟩
  rw [parts]
  exact parse_of_clean isProlog_xmlHeader checked_xmlHeader.2 transcribes clean

omit [XmlEncode] in
theorem cost_deviceNode_pos (dev : IioDevice δ) : 0 < cost (deviceNode dev) := by
  have named : elementCost (deviceElement dev) = tagCost (deviceElement dev) + 1 :=
    if_neg (show "device" ≠ "text" by decide)
  rw [deviceNode, cost_node, named]
  omega

omit [XmlEncode] in
/-- A context without one of its devices costs less. -/
theorem kept_eq_of_cost {kept devices : List (IioDevice δ)}
    (isKept : kept.Sublist devices) :
    forestCost (kept.map deviceNode) ≤ forestCost (devices.map deviceNode) ∧
      (forestCost (devices.map deviceNode) ≤ forestCost (kept.map deviceNode) →
        kept = devices) := by
  have forestCost_cons (dev : IioDevice δ) (others : List (IioDevice δ)) :
      forestCost ((dev :: others).map deviceNode) =
        cost (deviceNode dev) + forestCost (others.map deviceNode) := by
    rw [List.map_cons, ← List.singleton_append, forestCost_append, forestCost_singleton]
  induction isKept with
  | slnil => exact ⟨Nat.le_refl _, fun _ => rfl⟩
  | cons dev isKept induction =>
      have positive := cost_deviceNode_pos dev
      rw [forestCost_cons]
      exact ⟨by omega, fun enough => absurd enough (by omega)⟩
  | cons_cons dev isKept induction =>
      rw [forestCost_cons, forestCost_cons]
      refine ⟨by omega, fun enough => ?_⟩
      rw [induction.2 (by omega)]

variable [Platform]

/-- The document is well formed and reads as the context with all of its strings. -/
def ReadsBack (ctx : IioContext δ) : Prop :=
  ∃ text, iioContextCreateXml ctx = some text ∧
    parse text = some (contextTree ctx ctx.devices)

theorem readsBack_of_plain {ctx : IioContext δ} (within : ctx.WithinLimits)
    (printable : ctx.Printable) (plain : ctx.Plain) (fits : ctx.Fits) : ReadsBack ctx :=
  ⟨_, created_of_fits within fits,
    parse_contextText printable (fun _ member => member)
      ((cleanWith_all_iff ctx).mpr plain)⟩

theorem fits_of_readsBack {ctx : IioContext δ} (within : ctx.WithinLimits)
    (printable : ctx.Printable) (readsBack : ReadsBack ctx) : ctx.Fits := by
  rcases readsBack with ⟨text, created, parsed⟩
  rcases kept_of_created within created with ⟨kept, isKept, parts, size⟩
  rcases transcribes_context printable fun _ held => isKept.subset held with
    ⟨body, whole, transcribes⟩
  rw [parts, whole] at parsed
  have enough :=
    cost_le_of_transcribes isProlog_xmlHeader checked_xmlHeader.2 transcribes parsed
  simp only [contextTree, cost_node, forestCost_append] at enough
  rw [parts, (kept_eq_of_cost isKept).2 (by omega)] at size
  exact (counted_eq_iff ctx).mp size

theorem plain_of_readsBack {ctx : IioContext δ} (within : ctx.WithinLimits)
    (printable : ctx.Printable) (readsBack : ReadsBack ctx) : ctx.Plain := by
  have fits := fits_of_readsBack within printable readsBack
  rcases readsBack with ⟨text, created, parsed⟩
  rw [created_of_fits within fits, Option.some.injEq] at created
  rcases transcribes_context printable (fun _ member => member) with
    ⟨body, whole, transcribes⟩
  rw [← created, whole] at parsed
  rw [← cleanWith_all_iff]
  exact clean_of_parse isProlog_xmlHeader checked_xmlHeader.2 transcribes parsed rfl

/-- The generated document reads back exactly when no string needs a reference and the encoded
attributes of the context fit. -/
theorem generated_reads_back_iff {ctx : IioContext δ} (within : ctx.WithinLimits)
    (printable : ctx.Printable) : ReadsBack ctx ↔ ctx.Plain ∧ ctx.Fits := by
  constructor
  · intro readsBack
    exact ⟨plain_of_readsBack within printable readsBack,
      fits_of_readsBack within printable readsBack⟩
  · rintro ⟨plain, fits⟩
    exact readsBack_of_plain within printable plain fits

end Documents

/-! ## Examples -/

namespace Reference

scoped instance : Platform where
  NAME_MAX := 255
  PAGESIZE := 4096
  name_max := Nat.le_refl _

scoped instance : PrintfDouble Int64 where
  fixed value := toString value.toInt ++ ".000000"
  named value c member := by
    rw [String.toList_append, List.mem_append] at member
    cases member with
    | inl digits => exact isNameChar_of_mem_toString digits
    | inr fraction =>
        have named : ∀ c ∈ ".000000".toList, isNameChar c = true := by decide
        exact named c fraction
  short value := by
    have whole := length_index_le value
    have fraction : ".000000".length = 7 := by decide
    rw [String.length_append]
    omega

scoped instance : XmlEncode where
  encodeXmlNdup text := String.ofList (text.toList.flatMap (encodeEntity ['"']))
  quotation := ['"']
  quotation_eq := Or.inl rfl
  encoded _ _ := String.toList_ofList

end Reference

section Examples

open scoped GenXml.Reference

def supplyChannelOf (isOutput : Bool) : IioChannel Int64 where
  id := "voltage0"
  name := none
  isOutput := isOutput
  isScanElement := false
  index := 0
  format := ⟨16, 12, 4, false, false, false, false, 0, 1⟩
  attrs := [⟨⟨"raw", if isOutput then some "2048" else none⟩,
    if isOutput then some "out_voltage0_raw" else none⟩]

def supplyDevice : IioDevice Int64 where
  id := "iio:device0"
  name := some "ad5627"
  channels := [supplyChannelOf true, supplyChannelOf false]
  attrs := [⟨"mode", some "manual"⟩]
  bufferAttrs := [⟨"mode", none⟩]
  debugAttrs := [⟨"mode", some "auto"⟩]

def supplyNames : List String :=
  ["iio:device0", "ad5627", "voltage0", "raw", "out_voltage0_raw", "mode"]

def supplyValues : List String := ["2048", "manual", "auto"]

theorem all_supplyDevice {Named Valued : String → Prop}
    (named : ∀ name ∈ supplyNames, Named name) (valued : ∀ value ∈ supplyValues,
      Valued value) : supplyDevice.All Named Valued := by
  have channels (isOutput : Bool) : (supplyChannelOf isOutput).All Named Valued := by
    refine ⟨named "voltage0" (by simp [supplyNames]), by simp [supplyChannelOf], ?_⟩
    intro attr member
    rw [List.mem_singleton.mp member]
    refine ⟨?_, named "raw" (by simp [supplyNames]), ?_⟩
    · cases isOutput <;> simp [named "out_voltage0_raw" (by simp [supplyNames])]
    · cases isOutput <;> simp [valued "2048" (by simp [supplyValues])]
  have attrs (value : Option String) (given : ∀ text ∈ value, Valued text) :
      ∀ attr ∈ [IioAttr.mk "mode" value], attr.All Named Valued := by
    intro attr member
    rw [List.mem_singleton.mp member]
    exact ⟨named "mode" (by simp [supplyNames]), given⟩
  refine ⟨named "iio:device0" (by simp [supplyNames]), ?_, ?_, ?_, ?_, ?_⟩
  · simp [supplyDevice, named "ad5627" (by simp [supplyNames])]
  · simp [supplyDevice, channels]
  · exact attrs _ (by simp [valued "manual" (by simp [supplyValues])])
  · exact attrs _ (by simp)
  · exact attrs _ (by simp [valued "auto" (by simp [supplyValues])])

def described (description : String) : IioContext Int64 :=
  ⟨"local", some description, [⟨"local,kernel", "5.4 <arm>"⟩], [supplyDevice]⟩

theorem all_described {description : String} {Named Valued : String → Prop}
    (named : ∀ name ∈ description :: "local" :: supplyNames, Named name)
    (valued : ∀ value ∈ supplyValues, Valued value) :
    (described description).All Named Valued := by
  have device :=
    all_supplyDevice (fun name member => named name (by simp [member])) valued
  exact ⟨named "local" (by simp), by simp [described, named description (by simp)],
    by simp [described, device]⟩

theorem withinLimits_described :
    ∀ description ∈ ["Linux", "a < b"], (described description).WithinLimits := by
  intro description member
  refine ⟨all_described ?_ ?_, ?_⟩
  · revert description
    change ∀ description ∈ ["Linux", "a < b"],
      ∀ name ∈ description :: "local" :: supplyNames, name.length ≤ 255
    decide
  · change ∀ value ∈ supplyValues, value.length < 100
    decide
  · change ∀ attr ∈ [XmlAttribute.mk "local,kernel" "5.4 <arm>"],
      attr.name.length ≤ 255 ∧ attr.value.length ≤ 4096
    decide

theorem printable_described :
    ∀ description ∈ ["Linux", "a < b"], (described description).Printable := by
  intro description member
  refine ⟨all_described ?_ ?_, ?_⟩
  · revert description
    change ∀ description ∈ ["Linux", "a < b"],
      ∀ name ∈ description :: "local" :: supplyNames,
      ∀ c ∈ name.toList, isPrint c = true
    decide
  · change ∀ value ∈ supplyValues, ∀ c ∈ value.toList, isPrint c = true
    decide
  · change ∀ attr ∈ [XmlAttribute.mk "local,kernel" "5.4 <arm>"],
      (∀ c ∈ attr.name.toList, isPrint c = true) ∧
      ∀ c ∈ attr.value.toList, isPrint c = true
    decide

theorem plain_described : (described "Linux").Plain := by
  refine ⟨all_described ?_ ?_, ?_⟩
  · change ∀ name ∈ "Linux" :: "local" :: supplyNames,
      ∀ c ∈ name.toList, c ≠ '<' ∧ c ≠ '&' ∧ c ≠ '"'
    decide
  · change ∀ value ∈ supplyValues, ∀ c ∈ value.toList, c ≠ '<' ∧ c ≠ '&' ∧ c ≠ '"'
    decide
  · change ∀ attr ∈ [XmlAttribute.mk "local,kernel" "5.4 <arm>"],
      (['"'] = ['"'] → '"' ∉ attr.name.toList) ∧ (['"'] = ['"'] → '"' ∉ attr.value.toList)
    decide

theorem fits_described : (described "Linux").Fits := by
  change ∀ attr ∈ [XmlAttribute.mk "local,kernel" "5.4 <arm>"],
    (String.ofList (attr.name.toList.flatMap (encodeEntity ['"']))).length ≤ 255 ∧
      (String.ofList (attr.value.toList.flatMap (encodeEntity ['"']))).length ≤ 4096
  simp only [String.length_ofList]
  decide

theorem encoded_attribute_reads_back : ReadsBack (described "Linux") :=
  (generated_reads_back_iff (withinLimits_described _ (by simp))
    (printable_described _ (by simp))).mpr ⟨plain_described, fits_described⟩

/-- A description is not encoded. -/
theorem description_is_not_encoded :
    (described "a < b").WithinLimits ∧ (described "a < b").Printable ∧
      ¬ ReadsBack (described "a < b") := by
  have within := withinLimits_described "a < b" (by simp)
  have printable := printable_described "a < b" (by simp)
  refine ⟨within, printable, fun readsBack => ?_⟩
  have plain := plain_of_readsBack within printable readsBack
  have clean := plain.strings.description "a < b" rfl
  rw [NeedsNoEscape] at clean
  revert clean
  decide

end Examples

end IioEmu.GenXml
