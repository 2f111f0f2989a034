import IioEmu.Devices.M2kDAC.FrameIsolation
import IioEmu.Utils.AttributeReads

/-! # The rates a document holds

A client may store any text as a rate. Every text is read into a buffer of a fixed size, the
sampling rate is parsed as a number where there is one, and the oversampling ratio has to be an
integer. -/

namespace IioEmu

section Rates

variable [LibXml2] [TinyIIOD]

def samplingFrequencyOf (deviceId : String) : AttributeKey :=
  .device deviceId .device "sampling_frequency"

def oversamplingRatioOf (deviceId : String) : AttributeKey :=
  .device deviceId .device "oversampling_ratio"

structure HoldsRates (doc : Option XmlDoc)
    (deviceId samplingFrequency oversamplingRatio : String) :
    Prop where
  frequency : contents doc (samplingFrequencyOf deviceId) =
    .ok (some (some samplingFrequency))
  frequencyFree : NulFree samplingFrequency
  ratio : contents doc (oversamplingRatioOf deviceId) =
    .ok (some (some oversamplingRatio))
  ratioFree : NulFree oversamplingRatio

def FitsBuffer (text : String) : Prop := text.length < TinyIIOD.IIOD_BUFFER_SIZE

instance (text : String) : Decidable (FitsBuffer text) :=
  inferInstanceAs (Decidable (text.length < TinyIIOD.IIOD_BUFFER_SIZE))

theorem read_text_iff {doc : Option XmlDoc} {key : AttributeKey} {text : String}
    (holds : contents doc key = .ok (some (some text)))
    (free : NulFree text) {buf : CharArray}
    (sized : buf.length = TinyIIOD.IIOD_BUFFER_SIZE) {ret : Int} {stored : CharArray} :
    key.read doc buf TinyIIOD.IIOD_BUFFER_SIZE = .ok (ret, stored) ↔ FitsBuffer text ∧
      ret = text.length + 1 ∧ stored = terminated text ++ buf.drop (text.length + 1) := by
  rw [AttributeKey.read_eq, holds, Outcome.ok_bind, FitsBuffer, ← sized]
  exact copyValue_eq_ok_iff free

omit [LibXml2] in
theorem length_after_read {text : String} (fits : FitsBuffer text) {buf : CharArray}
    (sized : buf.length = TinyIIOD.IIOD_BUFFER_SIZE) :
    (terminated text ++ buf.drop (text.length + 1)).length =
    TinyIIOD.IIOD_BUFFER_SIZE := by
  rw [FitsBuffer] at fits
  rw [List.length_append, length_terminated, List.length_drop]
  omega

/-- Reading both rates into one buffer returns exactly where both texts fit it and the second
one is an integer. -/
theorem HoldsRates.read_iff {doc : Option XmlDoc}
    {deviceId samplingFrequency oversamplingRatio : String}
    (holds : HoldsRates doc deviceId samplingFrequency oversamplingRatio)
    {tmpAttr : CharArray} (sized : tmpAttr.length = TinyIIOD.IIOD_BUFFER_SIZE) {α : Type}
    (make : String → Int → α) {result : α} :
    (do
      let (_, tmpAttr) ← readDeviceAttr doc deviceId "sampling_frequency" tmpAttr
        TinyIIOD.IIOD_BUFFER_SIZE .device
      let frequency ← cString tmpAttr
      let (_, tmpAttr) ← readDeviceAttr doc deviceId "oversampling_ratio" tmpAttr
        TinyIIOD.IIOD_BUFFER_SIZE .device
      let ratio ← cString tmpAttr >>= stoi
      return make frequency ratio : Outcome α) = .ok result ↔
        FitsBuffer samplingFrequency ∧ FitsBuffer oversamplingRatio ∧
          ∃ ratio, stoi oversamplingRatio = .ok ratio ∧
            result = make samplingFrequency ratio := by
  have frequency (ret : Int) (stored : CharArray) :
      readDeviceAttr doc deviceId "sampling_frequency" tmpAttr TinyIIOD.IIOD_BUFFER_SIZE
        .device = .ok (ret, stored) ↔ _ :=
          read_text_iff holds.frequency holds.frequencyFree sized
  simp only [Outcome.bind_eq_ok, Prod.exists, Outcome.pure_eq_ok,
    Except.ok.injEq, frequency]
  constructor
  · rintro ⟨_, _, ⟨fits, rfl, rfl⟩, text, spelled, ret, stored, read, ratio,
      ⟨ratioText, ratioSpelled, converted⟩, rfl⟩
    rw [cString_terminated_append holds.frequencyFree, Except.ok.injEq] at spelled
    rcases (read_text_iff holds.ratio holds.ratioFree (length_after_read fits sized)).mp
        read with
      ⟨ratioFits, _, rfl⟩
    rw [cString_terminated_append holds.ratioFree, Except.ok.injEq] at ratioSpelled
    subst spelled ratioSpelled
    exact ⟨fits, ratioFits, ratio, converted, rfl⟩
  · rintro ⟨fits, ratioFits, ratio, converted, rfl⟩
    exact ⟨_, _, ⟨fits, rfl, rfl⟩, _,
      cString_terminated_append holds.frequencyFree _, _, _,
      (read_text_iff holds.ratio holds.ratioFree (length_after_read fits sized)).mpr
        ⟨ratioFits, rfl, rfl⟩, ratio,
      ⟨_, cString_terminated_append holds.ratioFree _, converted⟩, rfl⟩

/-! ## Writing a rate -/

structure RateWrite where
  oversampling : Bool
  text : String
  free : NulFree text
  rest : CharArray
  len : Nat

def RateWrite.key (deviceId : String) (write : RateWrite) : AttributeKey :=
  if write.oversampling then oversamplingRatioOf deviceId else samplingFrequencyOf deviceId

def writeAttr (deviceId : String) (doc : Option XmlDoc) (write : RateWrite) :
    Outcome (Option XmlDoc) :=
  Prod.snd <$> (write.key deviceId).write doc (terminated write.text ++
    write.rest) write.len

structure RateTexts where
  samplingFrequency : String
  oversamplingRatio : String

def RateTexts.after (texts : RateTexts) (write : RateWrite) : RateTexts :=
  if write.oversampling then { texts with oversamplingRatio := write.text }
  else { texts with samplingFrequency := write.text }

omit [LibXml2] [TinyIIOD] in
theorem samplingFrequencyOf_ne (deviceId : String) :
    samplingFrequencyOf deviceId ≠ oversamplingRatioOf deviceId := by
  simp [samplingFrequencyOf, oversamplingRatioOf]

omit [TinyIIOD] in
theorem HoldsRates.writeAttr {doc : Option XmlDoc} {deviceId : String} {texts : RateTexts}
    (holds : HoldsRates doc deviceId texts.samplingFrequency texts.oversamplingRatio)
    (separates : Separates doc) (write : RateWrite) :
    ∃ next, IioEmu.writeAttr deviceId doc write = .ok next ∧ Separates next ∧
      HoldsRates next deviceId (texts.after write).samplingFrequency
        (texts.after write).oversamplingRatio := by
  have located : ∃ nodeAttr, (write.key deviceId).lookup doc = .ok (some nodeAttr) := by
    rw [RateWrite.key]
    split
    · exact lookup_of_contents holds.ratio
    · exact lookup_of_contents holds.frequency
  rcases located with ⟨nodeAttr, found⟩
  have written := AttributeKey.write_found found write.free write.rest write.len
  have updated := contents_setValue separates found write.text
  refine ⟨setValue doc nodeAttr write.text, ?_,
    separates.setValue nodeAttr write.text, ?_⟩
  · rw [IioEmu.writeAttr, written]
    rfl
  · rw [RateTexts.after]
    split
    · rename_i oversampling
      rw [RateWrite.key, if_pos oversampling] at updated
      refine ⟨?_, holds.frequencyFree, ?_, write.free⟩
      · rw [updated, Function.update_of_ne (samplingFrequencyOf_ne deviceId)]
        exact holds.frequency
      · rw [updated, Function.update_self]
    · rename_i oversampling
      rw [RateWrite.key, if_neg oversampling] at updated
      refine ⟨?_, write.free, ?_, holds.ratioFree⟩
      · rw [updated, Function.update_self]
      · rw [updated, Function.update_of_ne (samplingFrequencyOf_ne deviceId).symm]
        exact holds.ratio

omit [TinyIIOD] in
/-- After a sequence of writes the document holds the last text of each rate. -/
theorem holdsRates_of_writes {doc : Option XmlDoc} {deviceId : String} {texts : RateTexts}
    (holds : HoldsRates doc deviceId texts.samplingFrequency texts.oversamplingRatio)
    (separates : Separates doc) (writes : List RateWrite) :
    ∃ final, writes.foldlM (writeAttr deviceId) doc = .ok final ∧
      HoldsRates final deviceId (writes.foldl RateTexts.after texts).samplingFrequency
        (writes.foldl RateTexts.after texts).oversamplingRatio := by
  induction writes generalizing doc texts with
  | nil => exact ⟨doc, rfl, holds⟩
  | cons write writes induction =>
      rcases holds.writeAttr separates write with ⟨next, written, apart, held⟩
      rcases induction held apart with ⟨final, ran, ends⟩
      refine ⟨final, ?_, ends⟩
      rw [List.foldlM_cons, written]
      exact ran

end Rates

namespace M2kDAC

variable {δ : Type} [Double δ] [LibXml2] [TinyIIOD]

def withRates (dac : M2kDAC δ) (samplingFrequency : String) (ratio : Int) : M2kDAC δ :=
  { dac with
    samplerate := safeStod samplingFrequency, oversamplingRatio := unsignedOfInt ratio }

theorem loadCalibValues_eq_ok_iff {dac loaded : M2kDAC δ} {doc : Option XmlDoc}
    {samplingFrequency oversamplingRatio : String}
    (holds : HoldsRates doc dac.deviceId samplingFrequency oversamplingRatio) :
    dac.loadCalibValues doc = .ok loaded ↔
      FitsBuffer samplingFrequency ∧ FitsBuffer oversamplingRatio ∧
        ∃ ratio, stoi oversamplingRatio = .ok ratio ∧
          loaded = dac.withRates samplingFrequency ratio := by
  exact holds.read_iff List.length_replicate fun frequency ratio =>
    dac.withRates frequency ratio

end M2kDAC

end IioEmu
