import IioEmu.Tools.ContextTree

/-! # What the generator writes

Where the strings are within their limits the lengths counted in advance are those of the
texts, so that nothing is cut off or left out. -/

namespace IioEmu.GenXml

open Xml

/-! ## Writing in the room that was counted -/

def Piece.whole (text : List Char) : Piece := ⟨text, text.length⟩

theorem sum_length_whole {α : Type} (values : List α) (text : α → List Char) :
    ((values.map fun value => Piece.whole (text value)).map Piece.length).sum =
      (values.flatMap text).length := by
  rw [List.length_flatMap, List.map_map]
  rfl

theorem snprintf_of_lt {size : Nat} {text : List Char} (room : text.length < size) :
    snprintf size text = text := by
  rw [snprintf]
  exact List.take_of_length_le (Nat.le_sub_one_of_lt room)

theorem length_optional (value : Option (List Char)) :
    (value.map Piece.whole).elim 0 Piece.length = (value.getD []).length := by
  cases value <;> rfl

theorem mapM_of_forall {α β : Type} {values : List α} {make : α → Option β} {made : α → β}
    (each : ∀ value ∈ values, make value = some (made value)) :
    values.mapM make = some (values.map made) := by
  induction values with
  | nil => rfl
  | cons value values induction =>
      have rest := induction fun other member => each other (by simp [member])
      rw [List.mapM_cons, each value (by simp), rest]
      rfl

namespace Output

def add (out : Output) (text : List Char) : Output :=
  ⟨out.text ++ text, out.len - text.length⟩

theorem add_add (out : Output) (first second : List Char) :
    (out.add first).add second = out.add (first ++ second) := by
  simp only [add, List.append_assoc, List.length_append, mk.injEq, true_and]
  omega

@[simp] theorem add_nil (out : Output) : out.add [] = out := by
  simp [add]

def Writes (write : Output → Output) (text : List Char) : Prop :=
  ∀ out : Output, (text.length : Int) < out.len → write out = out.add text

theorem writes_print (text : List Char) : Writes (fun out => out.print text) text := by
  intro out room
  have positive : 0 < out.len := by omega
  change out.print text = out.add text
  rw [print, if_pos positive, snprintf_of_lt (by omega), add]

theorem writes_copy (text : List Char) :
    Writes (fun out => out.copy (Piece.whole text)) text := by
  intro out room
  have fits : ((Piece.whole text).length : Int) < out.len := room
  change out.copy (Piece.whole text) = out.add text
  rw [copy, if_pos fits, Piece.whole, List.take_length, add]

theorem writes_nothing : Writes (fun out => out) [] := by
  intro out _
  rw [add_nil]

theorem Writes.andThen {first second : Output → Output} {text more : List Char}
    (writes : Writes first text) (next : Writes second more) :
    Writes (fun out => second (first out)) (text ++ more) := by
  intro out room
  rw [List.length_append] at room
  change second (first out) = out.add (text ++ more)
  rw [writes out (by omega), next (out.add text) (by simp only [add]; omega), add_add]

theorem writes_optional {α : Type} (value : Option α) {write : α → Output → Output}
    {text : α → List Char} (each : ∀ given ∈ value, Writes (write given) (text given)) :
    Writes (fun out => value.elim out fun given => write given out)
      (value.elim [] text) := by
  cases value with
  | none => exact writes_nothing
  | some given => exact each given rfl

theorem writes_foldl {α : Type} {values : List α} {write : Output → α → Output}
    {text : α → List Char}
    (each : ∀ value ∈ values, Writes (fun out => write out value) (text value)) :
    Writes (fun out => values.foldl write out) (values.flatMap text) := by
  induction values with
  | nil => exact writes_nothing
  | cons value values induction =>
      have rest := induction fun other member => each other (by simp [member])
      exact (each value (by simp)).andThen rest

theorem writes_copies {α : Type} (values : List α) (text : α → List Char) :
    Writes (fun out => (values.map fun value => Piece.whole (text value)).foldl copy out)
      (values.flatMap text) := by
  simp only [List.foldl_map]
  exact writes_foldl fun value _ => writes_copy (text value)

theorem writes_optionalCopy (value : Option (List Char)) :
    Writes (fun out => (value.map Piece.whole).elim out out.copy) (value.getD []) := by
  cases value with
  | none => exact writes_nothing
  | some text => exact writes_copy text

def Adds (write : Output → Output) (Possible : List Char → Prop) : Prop :=
  ∀ out : Output, 0 < (write out).len → 0 < out.len ∧
    ∃ text, Possible text ∧ write out = out.add text

theorem adds_print (text : List Char) : Adds (fun out => out.print text) (· = text) := by
  intro out left
  change 0 < (out.print text).len at left
  by_cases room : 0 < out.len
  · rw [print, if_pos room] at left
    exact ⟨room, text, rfl, writes_print text out (by simpa using left)⟩
  · rw [print, if_neg room] at left
    exact absurd left room

theorem Adds.andThen {first second : Output → Output} {Possible Next : List Char → Prop}
    (adds : Adds first Possible) (next : Adds second Next) :
    Adds (fun out => second (first out))
      (fun text => ∃ before after,
      Possible before ∧ Next after ∧ text = before ++ after) := by
  intro out left
  rcases next (first out) left with ⟨between, after, isNext, added⟩
  rcases adds out between with ⟨room, before, possible, addedBefore⟩
  refine ⟨room, before ++ after, ⟨before, after, possible, isNext, rfl⟩, ?_⟩
  change second (first out) = out.add (before ++ after)
  rw [added, addedBefore, add_add]

theorem adds_prints {α : Type} (values : List α) (text : α → List Char) :
    Adds (fun out => values.foldl (fun out value => out.print (text value)) out)
      (· = values.flatMap text) := by
  induction values with
  | nil =>
      intro out left
      exact ⟨left, [], rfl, (add_nil out).symm⟩
  | cons value values induction =>
      intro out left
      rcases (adds_print (text value)).andThen induction out left with
        ⟨room, _, ⟨_, _, rfl, rfl, rfl⟩, added⟩
      exact ⟨room, _, rfl, added⟩

theorem adds_copies {α : Type} (values : List α) (text : α → List Char) :
    Adds (fun out => (values.map fun value => Piece.whole (text value)).foldl copy out)
      (fun written => ∃ kept : List α,
      kept.Sublist values ∧ written = kept.flatMap text) := by
  induction values with
  | nil =>
      intro out left
      exact ⟨left, [], ⟨[], List.Sublist.slnil, rfl⟩, (add_nil out).symm⟩
  | cons value values induction =>
      intro out left
      by_cases room : ((text value).length : Int) < out.len
      · have copied : out.copy (Piece.whole (text value)) = out.add (text value) :=
          writes_copy (text value) out room
        simp only [List.map_cons, List.foldl_cons, copied] at left ⊢
        rcases induction (out.add (text value)) left with
          ⟨_, _, ⟨kept, isKept, rfl⟩, added⟩
        refine ⟨by omega, text value ++ kept.flatMap text,
          ⟨value :: kept, isKept.cons_cons value, rfl⟩, ?_⟩
        rw [← add_add]
        exact added
      · have copied : out.copy (Piece.whole (text value)) = out := if_neg room
        simp only [List.map_cons, List.foldl_cons, copied] at left ⊢
        rcases induction out left with ⟨positive, _, ⟨kept, isKept, rfl⟩, added⟩
        exact ⟨positive, _, ⟨kept, isKept.cons value, rfl⟩, added⟩

theorem Adds.finish {write : Output → Output} {Possible : List Char → Prop}
    (adds : Adds write Possible) {size : Nat} {piece : Piece}
    (finished : (write ⟨[], size⟩).finish size = some piece) :
    Possible piece.text ∧ size = piece.text.length + 1 := by
  rw [Output.finish, Option.ite_none_right_eq_some] at finished
  rcases finished with ⟨one, equal⟩
  rcases adds ⟨[], size⟩ (by omega) with ⟨_, text, possible, added⟩
  rw [added] at equal one
  cases equal
  simp only [add, List.nil_append] at one ⊢
  exact ⟨possible, by omega⟩

theorem Writes.finish {write : Output → Output} {parts text : List Char}
    (writes : Writes write parts) (together : parts = text) {size : Nat}
    (counted : size = text.length + 1) :
    (write ⟨[], size⟩).finish size = some (Piece.whole text) := by
  subst together
  have room : (parts.length : Int) < size := by omega
  have left : (size : Int) - parts.length = 1 := by omega
  have length : ((size : Int) - 1).toNat = parts.length := by omega
  rw [writes ⟨[], size⟩ room, add, Output.finish]
  simp only [left, if_true, length, List.nil_append, Piece.whole]

end Output

theorem whole_of_counted {text : List Char} {len : Nat} (counted : len = text.length) :
    Piece.mk (snprintf (len + 1) text) len = Piece.whole text := by
  rw [snprintf_of_lt (by omega), counted, Piece.whole]

/-! ## Limits -/

section Limits

variable [Platform] {δ : Type}

def IsShortName (name : String) : Prop := name.length ≤ Platform.NAME_MAX

def IsShortValue (value : String) : Prop := value.length < BUF_SIZE

structure IioContext.WithinLimits (ctx : IioContext δ) : Prop where
  strings : ctx.All IsShortName IsShortValue
  attrs : ∀ attr ∈ ctx.attrs,
    attr.name.length ≤ Platform.NAME_MAX ∧ attr.value.length ≤ Platform.PAGESIZE

theorem length_valueOf_le {attr : IioAttr} (within : attr.All IsShortName IsShortValue) :
    (valueOf attr).length ≤ Platform.NAME_MAX := by
  have short : (valueOf attr).length < BUF_SIZE := by
    rw [valueOf]
    cases given : attr.value with
    | none => decide
    | some value => exact within.value value given
  have room := Platform.name_max
  rw [BUF_SIZE] at short
  omega

end Limits

/-! ## Elements without content -/

def emptyText (tag : Tag) : List Char := '<' :: (tag.text ++ [' '] ++ ['/', '>'])

def elementText (tag : Tag) (content : List Char) : List Char :=
  '<' :: (tag.text ++ [' '] ++ '>' :: content ++ '<' :: '/' :: tag.name.toList ++ ['>'])

section Texts

variable {δ : Type}

def attrText (type : IioAttrType) (attr : IioAttr) : List Char :=
  emptyText (verbatimTag (attrElement type attr))

def channelAttrText (attr : IioChannelAttr) : List Char :=
  emptyText (verbatimTag (channelAttrElement attr))

theorem attrText_eq (type : IioAttrType) (attr : IioAttr) :
    attrText type attr = written ["<", type.nodeName, " name=\"",
      attr.name, "\" value=\"", valueOf attr, "\" />"] := by
  simp [attrText, emptyText, Tag.text, verbatimTag, attrElement, verbatim,
    Spelling.text, written]

theorem channelAttrText_eq (attr : IioChannelAttr) :
    channelAttrText attr = match attr.filename with
    | some filename => written ["<attribute name=\"", attr.name,
        "\" filename=\"", filename, "\" value=\"", valueOf attr.toIioAttr, "\" />"]
    | none => written ["<attribute name=\"", attr.name, "\" value=\"",
        valueOf attr.toIioAttr, "\" />"] := by
  cases named : attr.filename <;>
    simp [channelAttrText, emptyText, Tag.text, verbatimTag,
      channelAttrElement, named, verbatim, Spelling.text, written]

def unscaledTag (chn : IioChannel δ) : Tag :=
  ⟨"scan-element",
    [verbatim ⟨"index", toString chn.index.toInt⟩, formatSpelling chn.format]⟩

theorem text_unscaledTag (chn : IioChannel δ) :
    emptyText (unscaledTag chn) = written ["<scan-element index=\"",
      toString chn.index.toInt, "\" format=\"",
      if chn.format.isBe then "b" else "l", "e:",
      signLetter chn.format, toString chn.format.bits.toNat, "/",
      toString chn.format.length.toNat, String.ofList (repeatText chn.format), "&gt;&gt;",
      toString chn.format.shift.toNat, "\" />"] := by
  cases big : chn.format.isBe <;>
    simp [emptyText, Tag.text, unscaledTag, formatSpelling, formatHead, big, verbatim,
      Spelling.text, written]

theorem length_toString_le (value : UInt32) : (toString value.toNat).length ≤ 10 := by
  have bound := value.toNat_lt
  rw [Nat.toString_eq_repr, Nat.length_repr_le_iff (by decide)]
  omega

theorem length_index_le (index : Int64) : (toString index.toInt).length ≤ 20 := by
  have lower := index.le_toInt
  have upper := index.toInt_lt
  rw [Int.toString_eq_repr, Int.repr_eq_if]
  split
  case isTrue positive =>
    rw [Nat.length_repr_le_iff (by decide)]
    omega
  case isFalse negative =>
    have digits : (-index.toInt).toNat.repr.length ≤ 19 := by
      rw [Nat.length_repr_le_iff (by decide)]
      omega
    have sign : "-".length = 1 := by decide
    rw [String.length_append]
    omega

theorem length_signLetter (format : IioDataFormat δ) :
    (signLetter format).length = 1 := by
  rw [signLetter]
  split <;> decide

theorem length_repeatText_le (format : IioDataFormat δ) :
    (repeatText format).length ≤ 11 := by
  rw [repeatText]
  split
  · rw [snprintf]
    exact List.length_take_le _ _
  · exact Nat.zero_le _

theorem length_unscaledTag_le (chn : IioChannel δ) :
    (emptyText (unscaledTag chn)).length ≤ 150 := by
  have index := length_index_le chn.index
  have sign := length_signLetter chn.format
  have bits := length_toString_le chn.format.bits
  have length := length_toString_le chn.format.length
  have shift := length_toString_le chn.format.shift
  have repeats := length_repeatText_le chn.format
  have endian : (if chn.format.isBe then "b" else "l").length = 1 := by
    split <;> decide
  rw [text_unscaledTag]
  simp only [← String.length_toList] at index sign bits length shift endian
  simp only [written, List.flatMap_cons, List.flatMap_nil,
    List.length_append, endian, sign, String.toList_ofList, String.reduceToList,
    List.length_cons, List.length_nil, Nat.reduceAdd]
  omega

end Texts

section Exact

variable [Platform] {δ : Type} [PrintfDouble δ]

omit [PrintfDouble δ] in
theorem getAttrXml2_eq (type : IioAttrType) {attr : IioAttr}
    (within : attr.All IsShortName IsShortValue) :
    getAttrXml2 type attr = Piece.whole (attrText type attr) := by
  rw [getAttrXml2, ← attrText_eq]
  apply whole_of_counted
  rw [attrText_eq, Nat.min_eq_left within.name,
    Nat.min_eq_left (length_valueOf_le within)]
  cases type <;> simp [written, ← String.length_toList,
    IioAttrType.nodeName, typePrefix] <;>
    omega

omit [PrintfDouble δ] in
theorem getAttrXml_eq {attr : IioChannelAttr}
    (within : attr.All IsShortName IsShortValue) :
    getAttrXml attr = Piece.whole (channelAttrText attr) := by
  rw [channelAttrText_eq]
  apply whole_of_counted
  rw [Nat.min_eq_left within.attr.name, Nat.min_eq_left (length_valueOf_le within.attr)]
  cases named : attr.filename with
  | none =>
      simp [written, ← String.length_toList]
      omega
  | some filename =>
      simp only [Nat.min_eq_left (within.filename filename named)]
      simp [written, ← String.length_toList]
      omega

omit [Platform] in
theorem getScanElement_eq (chn : IioChannel δ) :
    getScanElement chn = Piece.whole (emptyText (scanElementTag chn)) := by
  have short := length_unscaledTag_le chn
  have scale := PrintfDouble.short chn.format.scale
  rw [getScanElement]
  simp only [← text_unscaledTag]
  rw [snprintf_of_lt (by omega), ← Piece.whole]
  congr 1
  cases scaled : chn.format.withScale with
  | false => simp [unscaledTag, scanElementTag, scaleText, scaled]
  | true =>
      let body := '<' :: ((unscaledTag chn).text ++ [' '])
      have ends : emptyText (unscaledTag chn) = body ++ ['/', '>'] := by
        simp [emptyText, body]
      have length : (emptyText (unscaledTag chn)).length - 2 = body.length := by
        rw [ends, List.length_append]
        rfl
      have room : (written ["scale=\"",
        PrintfDouble.fixed chn.format.scale, "\" />"]).length <
          1024 - (emptyText (unscaledTag chn)).length + 2 := by
        simp only [← String.length_toList] at scale
        simp only [written, List.flatMap_cons, List.flatMap_nil, List.length_append,
          String.reduceToList, List.length_cons, List.length_nil]
        omega
      rw [if_pos rfl, snprintf_of_lt room, length, ends, List.take_left]
      simp [emptyText, body, Tag.text, unscaledTag, scanElementTag,
        scaleText, scaled, verbatim, Spelling.text, written]

/-! ## Channels and devices -/

def scanElementText (chn : IioChannel δ) : Option (List Char) :=
  if chn.isScanElement then some (emptyText (scanElementTag chn)) else none

def channelContent (chn : IioChannel δ) : List Char :=
  (scanElementText chn).getD [] ++ chn.attrs.flatMap channelAttrText

def channelText (chn : IioChannel δ) : List Char :=
  elementText (verbatimTag (channelElement chn)) (channelContent chn)

omit [Platform] in
theorem channelText_eq (chn : IioChannel δ) :
    channelText chn = written ["<channel id=\"", chn.id, "\""] ++
      (chn.name.elim [] fun name => written [" name=\"", name, "\""]) ++
      written [" type=\"", directionName chn.isOutput, "\" >"] ++ channelContent chn ++
      written ["</channel>"] := by
  cases named : chn.name <;>
    simp [channelText, elementText, Tag.text, verbatimTag,
      channelElement, named, verbatim, Spelling.text, written]

theorem iioChannelGetXml_eq {chn : IioChannel δ}
    (within : chn.All IsShortName IsShortValue) :
    iioChannelGetXml chn = some (Piece.whole (channelText chn)) := by
  have attrs : chn.attrs.map getAttrXml =
      chn.attrs.map fun attr => Piece.whole (channelAttrText attr) :=
    List.map_congr_left fun attr member => getAttrXml_eq (within.attrs attr member)
  have scanElement : (if chn.isScanElement then some (getScanElement chn) else none) =
      (scanElementText chn).map Piece.whole := by
    rw [getScanElement_eq, scanElementText]
    split <;> rfl
  have writesTag :=
    ((Output.writes_print (written ["<channel id=\"", chn.id, "\""])).andThen
    (Output.writes_optional chn.name fun name _ =>
      Output.writes_print (written [" name=\"", name, "\""]))).andThen
    (Output.writes_print (written [" type=\"", directionName chn.isOutput, "\" >"]))
  have writesContent := (Output.writes_optionalCopy (scanElementText chn)).andThen
    (Output.writes_copies chn.attrs channelAttrText)
  have writes := (writesTag.andThen writesContent).andThen
    (Output.writes_print (written ["</channel>"]))
  rw [iioChannelGetXml, attrs, scanElement]
  apply writes.finish (channelText_eq chn).symm
  rw [sum_length_whole, length_optional, Nat.min_eq_left within.id,
    channelText_eq, channelContent]
  cases named : chn.name with
  | none =>
      simp [written, ← String.length_toList]
      omega
  | some name =>
      simp only [Option.elim_some, Nat.min_eq_left (within.name name named)]
      simp [written, ← String.length_toList]
      omega

def attrsText (type : IioAttrType) (attrs : List IioAttr) : List Char :=
  attrs.flatMap (attrText type)

def deviceContent (dev : IioDevice δ) : List Char :=
  dev.channels.flatMap channelText ++ attrsText .device dev.attrs ++
    attrsText .buffer dev.bufferAttrs ++ attrsText .debug dev.debugAttrs

def deviceText (dev : IioDevice δ) : List Char :=
  elementText (verbatimTag (deviceElement dev)) (deviceContent dev)

omit [PrintfDouble δ] in
theorem map_getAttrXml2 (type : IioAttrType) {attrs : List IioAttr}
    (within : ∀ attr ∈ attrs, attr.All IsShortName IsShortValue) :
    attrs.map (getAttrXml2 type) = attrs.map fun attr => Piece.whole (attrText type attr) :=
  List.map_congr_left fun attr member => getAttrXml2_eq type (within attr member)

omit [Platform] in
theorem deviceText_eq (dev : IioDevice δ) :
    deviceText dev = written ["<device id=\"", dev.id, "\""] ++
      (dev.name.elim [] fun name => written [" name=\"", name, "\""]) ++ written [" >"] ++
      deviceContent dev ++ written ["</device>"] := by
  cases named : dev.name <;>
    simp [deviceText, elementText, Tag.text, verbatimTag, deviceElement, named, verbatim,
      Spelling.text, written]

theorem iioDeviceGetXml_eq {dev : IioDevice δ}
    (within : dev.All IsShortName IsShortValue) :
    iioDeviceGetXml dev = some (Piece.whole (deviceText dev)) := by
  have channels : dev.channels.mapM iioChannelGetXml =
      some (dev.channels.map fun chn => Piece.whole (channelText chn)) :=
    mapM_of_forall fun chn member => iioChannelGetXml_eq (within.channels chn member)
  have writesTag :=
    ((Output.writes_print (written ["<device id=\"", dev.id, "\""])).andThen
    (Output.writes_optional dev.name fun name _ =>
      Output.writes_print (written [" name=\"", name, "\""]))).andThen
    (Output.writes_print (written [" >"]))
  have writesAttrs (type : IioAttrType) (attrs : List IioAttr) :=
    Output.writes_copies attrs (attrText type)
  have writesContent := (((Output.writes_copies dev.channels channelText).andThen
    (writesAttrs .device dev.attrs)).andThen (writesAttrs .buffer dev.bufferAttrs)).andThen
    (writesAttrs .debug dev.debugAttrs)
  have writes := (writesTag.andThen writesContent).andThen
    (Output.writes_print (written ["</device>"]))
  rw [iioDeviceGetXml, channels, map_getAttrXml2 .device within.attrs,
    map_getAttrXml2 .buffer within.bufferAttrs, map_getAttrXml2 .debug within.debugAttrs]
  apply writes.finish (deviceText_eq dev).symm
  simp only [sum_length_whole]
  rw [Nat.min_eq_left within.id, deviceText_eq, deviceContent]
  cases named : dev.name with
  | none =>
      simp [attrsText, written, ← String.length_toList]
      omega
  | some name =>
      simp only [Option.elim_some, Nat.min_eq_left (within.name name named)]
      simp [attrsText, written, ← String.length_toList]
      omega

end Exact

/-! ## The whole document -/

section Context

variable [Platform] [XmlEncode] {δ : Type} [PrintfDouble δ]

def IioContext.Fits (ctx : IioContext δ) : Prop :=
  ∀ attr ∈ ctx.attrs, (XmlEncode.encodeXmlNdup attr.name).length ≤ Platform.NAME_MAX ∧
    (XmlEncode.encodeXmlNdup attr.value).length ≤ Platform.PAGESIZE

def contextAttrText (attr : XmlAttribute) : List Char :=
  emptyText (encodedTag (contextAttrElement attr))

omit [Platform] [PrintfDouble δ] in
theorem contextAttributeText_eq (attr : XmlAttribute) :
    contextAttributeText attr = contextAttrText attr := by
  simp [contextAttributeText, contextAttrText, emptyText, Tag.text, encodedTag,
    contextAttrElement, encoded, Spelling.text, written]

def contextText (ctx : IioContext δ) (devices : List (IioDevice δ)) : List Char :=
  xmlHeader.toList ++ elementText (verbatimTag (contextElement ctx))
    (ctx.attrs.flatMap contextAttrText ++ devices.flatMap deviceText)

def headText (ctx : IioContext δ) : List Char :=
  match ctx.description with
  | some description => written [xmlHeader, "<context name=\"", ctx.name,
      "\" description=\"", description, "\" >"]
  | none => written [xmlHeader, "<context name=\"", ctx.name, "\" >"]

omit [Platform] in
theorem contextText_eq (ctx : IioContext δ) (devices : List (IioDevice δ)) :
    contextText ctx devices = headText ctx ++ ctx.attrs.flatMap contextAttrText ++
      devices.flatMap deviceText ++ written ["</context>"] := by
  cases described : ctx.description <;>
    simp [contextText, headText, described, elementText, Tag.text,
      verbatimTag, contextElement, verbatim, Spelling.text, written]

def countedAttr (attr : XmlAttribute) : Nat :=
  min (XmlEncode.encodeXmlNdup attr.name).length Platform.NAME_MAX +
    min (XmlEncode.encodeXmlNdup attr.value).length Platform.PAGESIZE +
    "<context-attribute name=\"\" value=\"\" />".length

def counted (ctx : IioContext δ) : Nat :=
  (headText ctx).length + (ctx.attrs.map countedAttr).sum +
    (ctx.devices.flatMap deviceText).length + (written ["</context>"]).length

def writeContext (ctx : IioContext δ) (out : Output) : Output :=
  ((ctx.devices.map fun dev => Piece.whole (deviceText dev)).foldl Output.copy
    (ctx.attrs.foldl (fun out attr => out.print (contextAttrText attr))
      (out.print (headText ctx)))).print (written ["</context>"])

theorem iioContextCreateXml_eq {ctx : IioContext δ} (within : ctx.WithinLimits) :
    iioContextCreateXml ctx =
      ((writeContext ctx ⟨[], (counted ctx + 1 : Nat)⟩).finish (counted ctx + 1)).map
        Piece.text := by
  have devices : ctx.devices.mapM iioDeviceGetXml =
      some (ctx.devices.map fun dev => Piece.whole (deviceText dev)) :=
    mapM_of_forall fun dev member => iioDeviceGetXml_eq (within.strings.devices dev member)
  have size : xmlHeader.length + min ctx.name.length Platform.NAME_MAX +
      "<context name=\"\" ></context>".length +
      (ctx.description.elim 0 fun description =>
        min description.length Platform.NAME_MAX + " description=\"\"".length) +
      (ctx.attrs.map countedAttr).sum + (ctx.devices.flatMap deviceText).length + 1 =
        counted ctx + 1 := by
    rw [Nat.min_eq_left within.strings.name]
    cases described : ctx.description with
    | none =>
        simp [counted, headText, described, written, ← String.length_toList]
        omega
    | some description =>
        have short := within.strings.description description described
        simp only [Option.elim_some, Nat.min_eq_left short]
        simp [counted, headText, described, written, ← String.length_toList]
        omega
  rw [← sum_length_whole ctx.devices deviceText] at size
  rw [iioContextCreateXml, devices]
  simp only [contextAttributeText_eq, ← size]
  cases described : ctx.description <;> simp only [writeContext,
    headText, described] <;> rfl

omit [Platform] in
theorem writes_context (ctx : IioContext δ) :
    Output.Writes (writeContext ctx) (contextText ctx ctx.devices) := by
  rw [contextText_eq]
  have writesAttrs : Output.Writes (fun out => ctx.attrs.foldl
      (fun out attr => out.print (contextAttrText attr)) out)
      (ctx.attrs.flatMap contextAttrText) :=
    Output.writes_foldl fun attr _ => Output.writes_print _
  exact (((Output.writes_print (headText ctx)).andThen writesAttrs).andThen
    (Output.writes_copies ctx.devices deviceText)).andThen (Output.writes_print _)

omit [Platform] in
theorem adds_context (ctx : IioContext δ) :
    Output.Adds (writeContext ctx)
      (fun text => ∃ kept, kept.Sublist ctx.devices ∧ text = contextText ctx kept) := by
  intro out left
  rcases (((Output.adds_print (headText ctx)).andThen
    (Output.adds_prints ctx.attrs contextAttrText)).andThen
    (Output.adds_copies ctx.devices deviceText)).andThen (Output.adds_print _) out left with
    ⟨room, _, ⟨_, _, ⟨_, _, ⟨_, _, rfl, rfl, rfl⟩, ⟨kept, isKept, rfl⟩, rfl⟩, rfl, rfl⟩,
      added⟩
  exact ⟨room, _, ⟨kept, isKept, (contextText_eq ctx kept).symm⟩, added⟩

omit [Platform] [XmlEncode] [PrintfDouble δ] in
theorem sum_eq_sum_iff {α : Type} {values : List α} {first second : α → Nat}
    (le : ∀ value ∈ values, first value ≤ second value) :
    (values.map first).sum ≤ (values.map second).sum ∧
      ((values.map first).sum = (values.map second).sum ↔
        ∀ value ∈ values, first value = second value) := by
  induction values with
  | nil => simp
  | cons value values induction =>
      have rest := induction fun other member => le other (by simp [member])
      have own := le value (by simp)
      rw [List.forall_mem_cons, ← rest.2, List.map_cons, List.map_cons, List.sum_cons,
        List.sum_cons]
      omega

omit [Platform] in
theorem length_contextAttrText (attr : XmlAttribute) :
    (contextAttrText attr).length =
      (XmlEncode.encodeXmlNdup attr.name).length +
      (XmlEncode.encodeXmlNdup attr.value).length +
        "<context-attribute name=\"\" value=\"\" />".length := by
  simp [← contextAttributeText_eq, contextAttributeText, written, ← String.length_toList]
  omega

/-- The count comes out exactly when the encoded attributes fit. -/
theorem counted_eq_iff (ctx : IioContext δ) :
    counted ctx = (contextText ctx ctx.devices).length ↔ ctx.Fits := by
  have sums := @sum_eq_sum_iff _ ctx.attrs countedAttr
    (fun attr => (contextAttrText attr).length) (by
      intro attr member
      rw [length_contextAttrText, countedAttr]
      omega)
  have length : (contextText ctx ctx.devices).length = (headText ctx).length +
      (ctx.attrs.map fun attr => (contextAttrText attr).length).sum +
        (ctx.devices.flatMap deviceText).length + (written ["</context>"]).length := by
    rw [contextText_eq, List.length_append, List.length_append, List.length_append,
      List.length_flatMap]
  have fits (attr : XmlAttribute) :
      countedAttr attr = (contextAttrText attr).length ↔
        (XmlEncode.encodeXmlNdup attr.name).length ≤ Platform.NAME_MAX ∧
          (XmlEncode.encodeXmlNdup attr.value).length ≤ Platform.PAGESIZE := by
    rw [length_contextAttrText, countedAttr]
    omega
  rw [length, counted, IioContext.Fits]
  simp only [← fits, ← sums.2]
  omega

theorem created_of_fits {ctx : IioContext δ}
    (within : ctx.WithinLimits) (fits : ctx.Fits) :
    iioContextCreateXml ctx = some (contextText ctx ctx.devices) := by
  have size := (counted_eq_iff ctx).mpr fits
  rw [iioContextCreateXml_eq within, (writes_context ctx).finish rfl (by rw [size])]
  rfl

theorem kept_of_created {ctx : IioContext δ}
    (within : ctx.WithinLimits) {text : List Char}
    (created : iioContextCreateXml ctx = some text) :
    ∃ kept, kept.Sublist ctx.devices ∧ text = contextText ctx kept ∧
      counted ctx = text.length := by
  rw [iioContextCreateXml_eq within, Option.map_eq_some_iff] at created
  rcases created with ⟨piece, finished, rfl⟩
  rcases (adds_context ctx).finish finished with ⟨⟨kept, isKept, equal⟩, size⟩
  exact ⟨kept, isKept, equal, Nat.succ.inj size⟩

end Context

end IioEmu.GenXml
