import IioEmu.Adalm2000.Adalm2000Context
import IioEmu.Adalm2000.Supply

/-! # The context keeps two supplies

The attributes of a supply are spread over two devices of the document, and the
text computed last lies beside it. A call of `chWriteAttr` on a supply channel is
a write of that supply, and leaves the other one alone. -/

namespace IioEmu

/-! ## The attributes of the supplies -/

inductive SupplyAttribute
  | raw
  | powerdown
  | readBack
  deriving DecidableEq

def supplyChannel (channel : Fin 2) : String :=
  if channel.val = 0 then "voltage0" else "voltage1"

def readBackChannel (channel : Fin 2) : String :=
  if channel.val = 0 then "voltage2" else "voltage1"

def supplyKey : SupplyAttribute × Fin 2 → AttributeKey
  | (.raw, channel) => .channel "iio:device3" (supplyChannel channel) true "raw"
  | (.powerdown, channel) => .channel "iio:device3" (supplyChannel channel) true "powerdown"
  | (.readBack, channel) => .channel "iio:device13" (readBackChannel channel) false "raw"

theorem supplyKey_injective : Function.Injective supplyKey := by
  rintro ⟨part, channel⟩ ⟨other, otherChannel⟩
  revert channel otherChannel
  cases part <;> cases other <;> decide

def Supply.text (supply : Supply) : SupplyAttribute → String
  | .raw => supply.raw
  | .powerdown => powerdownText supply.down
  | .readBack => supply.readBack

def SupplyWrite.attribute : SupplyWrite → SupplyAttribute
  | raw _ => .raw
  | powerdown _ => .powerdown

theorem Supply.text_stored (convert : Int → Int) (supply : Supply) (entry : SupplyWrite) :
    (supply.stored convert entry).text entry.attribute = entry.text := by
  cases entry <;> rfl

theorem Supply.text_stored_of_ne (convert : Int → Int) (supply : Supply)
    {entry : SupplyWrite} {other : SupplyAttribute}
    (different : other ≠ entry.attribute) :
    (supply.stored convert entry).text other = supply.text other := by
  cases entry <;> cases other <;> first | rfl | exact absurd rfl different

theorem Supply.text_refresh_of_ne (supply : Supply) {other : SupplyAttribute}
    (different : other ≠ .readBack) : supply.refresh.text other = supply.text other := by
  cases other with
  | raw => rfl
  | powerdown => rfl
  | readBack => exact absurd rfl different

def textsOf (supplies : Fin 2 → Supply) (place : SupplyAttribute × Fin 2) : String :=
  (supplies place.2).text place.1

theorem separates_adalm2000Xml : Separates (some Adalm2000Document.adalm2000Xml) :=
  separates_of_wellFormed (by decide +kernel)

theorem textsOf_update {supplies : Fin 2 → Supply} {channel : Fin 2} {next : Supply}
    (part : SupplyAttribute)
    (kept : ∀ other, other ≠ part → next.text other = (supplies channel).text other) :
    Function.update (textsOf supplies) (part, channel) (next.text part) =
      textsOf (Function.update supplies channel next) := by
  funext place
  rcases place with ⟨other, otherChannel⟩
  by_cases sameChannel : otherChannel = channel
  · subst sameChannel
    by_cases samePart : other = part
    · subst samePart
      simp [textsOf]
    · simp [textsOf, samePart, kept other samePart]
  · simp [textsOf, sameChannel]

theorem currents_update (supplies : Fin 2 → Supply) (channel : Fin 2) (next : Supply) :
    [(Function.update supplies channel next 0).current,
      (Function.update supplies channel next 1).current] =
      [(supplies 0).current, (supplies 1).current].set channel next.current := by
  revert channel
  rw [Fin.forall_fin_two]
  simp

section Attributes

variable [LibXml2]

/-- The document resolves what the bundled one does and holds these texts. -/
structure Holds (doc : Option XmlDoc)
    (texts : SupplyAttribute × Fin 2 → String) : Prop where
  lookup : ∀ key : AttributeKey,
    key.lookup doc = key.lookup (some Adalm2000Document.adalm2000Xml)
  contents : ∀ place, contents doc (supplyKey place) = .ok (some (some (texts place)))

theorem Holds.write {doc : Option XmlDoc} {texts : SupplyAttribute × Fin 2 → String}
    (holds : Holds doc texts) (place : SupplyAttribute × Fin 2) {text : String}
    (free : NulFree text) (rest : CharArray) (len : Nat) :
    ∃ ret next, (supplyKey place).write doc (terminated text ++ rest) len = .ok (ret, next) ∧
      Holds next (Function.update texts place text) := by
  rcases lookup_of_contents (holds.contents place) with ⟨nodeAttr, found⟩
  have separates : Separates doc := by
    intro key other pointer keyFound otherFound
    rw [holds.lookup] at keyFound otherFound
    exact separates_adalm2000Xml key other pointer keyFound otherFound
  refine ⟨_, _, AttributeKey.write_found found free rest len, ?_, ?_⟩
  · intro key
    rw [lookup_setValue, holds.lookup]
  · intro other
    rw [contents_setValue separates found]
    by_cases same : other = place
    · subst same
      rw [Function.update_self, Function.update_self]
    · rw [Function.update_of_ne same, Function.update_of_ne, holds.contents]
      intro equal
      exact same (supplyKey_injective equal)

def bundledSupply (channel : Fin 2) : Supply :=
  if channel.val = 0 then ⟨"0.000000", true, "", "0"⟩ else ⟨"-0.000000", true, "", "2"⟩

theorem holds_bundled :
    Holds (some Adalm2000Document.adalm2000Xml) (textsOf bundledSupply) := by
  constructor
  · intro key
    rfl
  · rintro ⟨part, channel⟩
    rw [contents_eq]
    revert channel
    cases part <;> decide +kernel

end Attributes

/-! ## The context's writes -/

section Context

variable {δ : Type} [Double δ]

/-- From a raw value to the value an ADC would measure. -/
def Adalm2000Context.roundTrip (context : Adalm2000Context δ) (channel : Fin 2)
    (value : Int) : Outcome Int :=
  context.convertPSDACRawToVolts channel value >>= context.convertPSADCVoltsToRaw channel

theorem Adalm2000Context.roundTrip_returns {context : Adalm2000Context δ}
    (calibrated : context.psCalibCoefficients.length = 8)
    (writable : context.psWriteCoefficients.length = 2)
    (readable : context.psReadCoefficients.length = 2) :
    ∃ convert : Fin 2 → Int → Int, ∀ channel value,
      context.roundTrip channel value = .ok (convert channel value) := by
  have coefficient (wanted : CalibrationCoefficient) :
      ∃ found, context.calibrated wanted = .ok found := by
    have inside : wanted.index < context.psCalibCoefficients.length := by
      rw [calibrated]
      cases wanted <;> decide
    exact ⟨_, vectorAt_of_lt inside⟩
  have returns : ∀ (channel : Fin 2) (value : Int),
      ∃ result, context.roundTrip channel value = .ok result := by
    intro channel value
    rcases coefficient (if channel.val = 0 then .dacOffsetPos else .dacOffsetNeg) with
      ⟨dacOffset, foundDacOffset⟩
    rcases coefficient (if channel.val = 0 then .dacGainPos else .dacGainNeg) with
      ⟨dacGain, foundDacGain⟩
    rcases coefficient (if channel.val = 0 then .adcOffsetPos else .adcOffsetNeg) with
      ⟨adcOffset, foundAdcOffset⟩
    rcases coefficient (if channel.val = 0 then .adcGainPos else .adcGainNeg) with
      ⟨adcGain, foundAdcGain⟩
    have wrote :=
      vectorAt_of_lt (show channel.val < context.psWriteCoefficients.length by omega)
    have read :=
      vectorAt_of_lt (show channel.val < context.psReadCoefficients.length by omega)
    simp only [roundTrip, convertPSDACRawToVolts, convertPSADCVoltsToRaw, foundDacOffset,
      foundDacGain, foundAdcOffset, foundAdcGain, wrote, read, Outcome.ok_bind,
      Outcome.pure_eq_ok]
    exact ⟨_, rfl⟩
  exact ⟨fun channel value => (returns channel value).choose,
    fun channel value => (returns channel value).choose_spec⟩

theorem supplyOf_supplyChannel (channel : Fin 2) :
    Adalm2000Context.supplyOf (supplyChannel channel) =
      (channel.val, readBackChannel channel) := by
  revert channel
  decide

theorem arrayStartsWith_powerdown (down : Bool) (rest : CharArray) :
    arrayStartsWith (terminated (powerdownText down) ++ rest) ['1'] = .ok down := by
  cases down <;> simp [powerdownText, terminated, arrayStartsWith]

variable [LibXml2]

/-- The context keeps these two supplies, and its coefficients convert this way. -/
structure Represents (convert : Fin 2 → Int → Int) (context : Adalm2000Context δ)
    (supplies : Fin 2 → Supply) : Prop where
  converts : ∀ channel value,
    context.roundTrip channel value = .ok (convert channel value)
  holds : Holds context.doc (textsOf supplies)
  current : context.psCurrentValues = [(supplies 0).current, (supplies 1).current]
  currentFree : ∀ channel, NulFree (supplies channel).current

variable {convert : Fin 2 → Int → Int} {context : Adalm2000Context δ}
  {supplies : Fin 2 → Supply}

theorem vectorAt_current (represents : Represents convert context supplies)
    (channel : Fin 2) :
    vectorAt context.psCurrentValues channel = .ok (supplies channel).current := by
  rw [represents.current]
  revert channel
  rw [Fin.forall_fin_two]
  exact ⟨rfl, rfl⟩

theorem set_current (represents : Represents convert context supplies) (channel : Fin 2) :
    context.psCurrentValues.set channel (supplies channel).current =
      context.psCurrentValues := by
  rw [represents.current]
  revert channel
  rw [Fin.forall_fin_two]
  exact ⟨rfl, rfl⟩

theorem Represents.update (represents : Represents convert context supplies)
    {channel : Fin 2} {next : Supply} {doc : Option XmlDoc}
    (holds : Holds doc (textsOf (Function.update supplies channel next)))
    (free : NulFree next.current) :
    Represents convert
      { context with
        doc := doc
        psCurrentValues := context.psCurrentValues.set channel next.current }
      (Function.update supplies channel next) where
  converts := represents.converts
  holds := holds
  current := by rw [currents_update, represents.current]
  currentFree := by
    intro other
    by_cases same : other = channel
    · subst same
      rw [Function.update_self]
      exact free
    · rw [Function.update_of_ne same]
      exact represents.currentFree other

theorem Represents.updateAttributes (represents : Represents convert context supplies)
    {channel : Fin 2} {next : Supply} {doc : Option XmlDoc}
    (holds : Holds doc (textsOf (Function.update supplies channel next)))
    (kept : next.current = (supplies channel).current) :
    Represents convert { context with doc := doc }
      (Function.update supplies channel next) := by
  have updated :=
    represents.update holds (by rw [kept]; exact represents.currentFree channel)
  rw [kept, set_current represents] at updated
  exact updated

theorem attribute_written (represents : Represents convert context supplies)
    (channel : Fin 2) (entry : SupplyWrite) (rest : CharArray) (len : Nat) :
    ∃ ret doc, writeChannelAttr context.doc "iio:device3" (supplyChannel channel) true
        entry.attr (terminated entry.text ++ rest) len = .ok (ret, doc) ∧
      Holds doc (textsOf (Function.update supplies channel
        ((supplies channel).stored (convert channel) entry))) := by
  rcases represents.holds.write (entry.attribute,
      channel) entry.nulFree_text rest len with
    ⟨ret, doc, written, holds⟩
  refine ⟨ret, doc, ?_, ?_⟩
  · cases entry <;> exact written
  · rw [← textsOf_update entry.attribute
      (fun other different => Supply.text_stored_of_ne _ _ different), Supply.text_stored]
    exact holds

theorem refreshCurrentValue_eq (represents : Represents convert context supplies)
    (channel : Fin 2) (integer : DecimalInteger) (rest : CharArray)
    (doc : Option XmlDoc) :
    ({ context with doc := doc }).refreshCurrentValue channel
        (terminated integer.text ++ rest) =
      if IsInt integer.value then .ok { context with
        doc := doc
        psCurrentValues := context.psCurrentValues.set channel
          (toString (convert channel integer.value)) }
      else .error .outOfRange := by
  have read := cString_terminated_append integer.nulFree_text rest
  have converted := represents.converts channel integer.value
  rw [Adalm2000Context.roundTrip, Outcome.bind_eq_ok] at converted
  rcases converted with ⟨voltage, toVolts, toRaw⟩
  have storedToVolts : ({ context with doc := doc }).convertPSDACRawToVolts channel
      integer.value = .ok voltage := toVolts
  have storedToRaw :
      ({ context with doc := doc }).convertPSADCVoltsToRaw channel voltage =
      .ok (convert channel integer.value) := toRaw
  have assigned : assignAt context.psCurrentValues channel
      (toString (convert channel integer.value)) =
      .ok (context.psCurrentValues.set channel
          (toString (convert channel integer.value))) := by
    rw [assignAt, if_pos]
    rw [represents.current]
    exact channel.isLt
  simp only [Adalm2000Context.refreshCurrentValue, read,
    Outcome.ok_bind, integer.stoi_text]
  by_cases fits : IsInt integer.value
  · rw [if_pos fits, if_pos fits]
    simp only [storedToVolts, storedToRaw, assigned, Outcome.ok_bind, Outcome.pure_eq_ok]
  · rw [if_neg fits, if_neg fits]
    rfl

theorem stored_represents (represents : Represents convert context supplies)
    (channel : Fin 2) {entry : SupplyWrite} (fits : entry.Fits) (rest : CharArray)
    {doc : Option XmlDoc} (holds : Holds doc (textsOf (Function.update supplies channel
      ((supplies channel).stored (convert channel) entry)))) :
    ∃ refreshed : Adalm2000Context δ,
      (if startsWith entry.attr "raw" then
        ({ context with doc := doc }).refreshCurrentValue channel
          (terminated entry.text ++ rest)
      else .ok { context with doc := doc }) = .ok refreshed ∧
      Represents convert refreshed (Function.update supplies channel
        ((supplies channel).stored (convert channel) entry)) := by
  cases entry with
  | raw integer =>
      have refreshed := refreshCurrentValue_eq represents channel integer rest doc
      rw [if_pos (fits integer rfl)] at refreshed
      rw [SupplyWrite.startsWith_attr_raw, if_pos rfl]
      exact ⟨_, refreshed, represents.update holds (nulFree_toString _)⟩
  | powerdown down =>
      rw [SupplyWrite.startsWith_attr_powerdown]
      exact ⟨_, rfl, represents.updateAttributes holds rfl⟩

variable [TinyIIOD]

theorem powerdown_read (represents : Represents convert context supplies)
    (stack : StackBuffer Char) (channel : Fin 2) :
    ∃ ret rest, readChannelAttr context.doc "iio:device3" (supplyChannel channel) true
        "powerdown" stack.1 TinyIIOD.IIOD_BUFFER_SIZE =
      .ok (ret, terminated (powerdownText (supplies channel).down) ++ rest) := by
  have short : (powerdownText (supplies channel).down).length = 1 := by
    cases (supplies channel).down <;> rfl
  have free : NulFree (powerdownText (supplies channel).down) := by
    cases (supplies channel).down <;> decide
  have large := TinyIIOD.bufferSize_large
  have inside : (powerdownText (supplies channel).down).length <
      TinyIIOD.IIOD_BUFFER_SIZE := by
    rw [short]
    omega
  have room : (powerdownText (supplies channel).down).length < stack.1.length := by
    rw [stack.2]
    exact inside
  have holds := represents.holds.contents (.powerdown, channel)
  exact ⟨_, _, read_of_contents holds free room inside⟩

theorem writeReadBack_eq (represents : Represents convert context supplies)
    (stack : StackBuffer Char) (channel : Fin 2) {ret : Int} {doc : Option XmlDoc}
    (written : writeChannelAttr context.doc "iio:device13" (readBackChannel channel) false
      "raw" (terminated (supplies channel).refresh.readBack)
      (supplies channel).refresh.readBack.length = .ok (ret, doc)) :
    context.writeReadBack stack "iio:device3" (supplyChannel channel) true =
      .ok { context with doc := doc } := by
  rcases powerdown_read represents stack channel with ⟨count, rest, read⟩
  simp only [Adalm2000Context.writeReadBack, supplyOf_supplyChannel,
    read, Outcome.ok_bind, arrayStartsWith_powerdown]
  cases powered : (supplies channel).down with
  | true =>
      simp only [Supply.refresh, powered, if_true] at written
      simp [written]
  | false =>
      simp only [Supply.refresh, powered, Bool.false_eq_true, if_false] at written
      simp [vectorAt_current represents, written]

theorem writeReadBack_represents (represents : Represents convert context supplies)
    (stack : StackBuffer Char) (channel : Fin 2) :
    ∃ next, context.writeReadBack stack "iio:device3"
      (supplyChannel channel) true = .ok next ∧
      Represents convert next
        (Function.update supplies channel (supplies channel).refresh) := by
  have free : NulFree (supplies channel).refresh.readBack := by
    simp only [Supply.refresh]
    split
    · decide
    · exact represents.currentFree channel
  rcases represents.holds.write (.readBack, channel) free []
    (supplies channel).refresh.readBack.length with ⟨ret, doc, written, holds⟩
  rw [List.append_nil] at written
  have updated : Holds doc (textsOf (Function.update supplies channel
      (supplies channel).refresh)) := by
    rw [← textsOf_update .readBack
      (fun other different => Supply.text_refresh_of_ne _ different)]
    exact holds
  exact ⟨_, writeReadBack_eq represents stack channel written,
    represents.updateAttributes updated rfl⟩

/-! ## Calls -/

structure SupplyCall where
  channel : Fin 2
  write : SupplyWrite
  rest : CharArray
  len : Nat

def supplyStep (context : Adalm2000Context δ) (call : SupplyCall) :
    Outcome (Adalm2000Context δ) :=
  Prod.snd <$> context.chWriteAttr "iio:device3" (supplyChannel call.channel) true
    call.write.attr (terminated call.write.text ++ call.rest) call.len

def supplyWrites (supplies : Fin 2 → Supply) (convert : Fin 2 → Int → Int)
    (call : SupplyCall) : Fin 2 → Supply :=
  Function.update supplies call.channel
    ((supplies call.channel).write (convert call.channel) call.write)

theorem supplyStep_eq {call : SupplyCall} {ret : Int} {doc : Option XmlDoc}
    (written : writeChannelAttr context.doc "iio:device3" (supplyChannel call.channel) true
      call.write.attr (terminated call.write.text ++ call.rest) call.len = .ok (ret, doc)) :
    supplyStep context call =
      ((if startsWith call.write.attr "raw" then
        ({ context with doc := doc }).refreshCurrentValue call.channel
          (terminated call.write.text ++ call.rest)
      else .ok { context with doc := doc }) >>= fun refreshed =>
        refreshed.writeReadBack (.unknown Char) "iio:device3"
            (supplyChannel call.channel) true) := by
  have supply : startsWith "iio:device3" "iio:device3" = true := by decide
  simp only [supplyStep, Adalm2000Context.chWriteAttr, written, Outcome.ok_bind, supply,
    if_true, supplyOf_supplyChannel]
  split
  case isTrue =>
    cases ({ context with doc := doc }).refreshCurrentValue call.channel
        (terminated call.write.text ++ call.rest) with
    | error fault => rfl
    | ok refreshed =>
        simp only [Outcome.ok_bind]
        cases refreshed.writeReadBack (.unknown Char) "iio:device3"
          (supplyChannel call.channel) true <;> rfl
  case isFalse =>
    simp only [Outcome.ok_bind]
    cases ({ context with doc := doc }).writeReadBack (.unknown Char) "iio:device3"
      (supplyChannel call.channel) true <;> rfl

theorem supplyStep_represents (represents : Represents convert context supplies)
    {call : SupplyCall} (fits : call.write.Fits) :
    ∃ next, supplyStep context call = .ok next ∧
      Represents convert next (supplyWrites supplies convert call) := by
  rcases attribute_written represents call.channel call.write call.rest call.len with
    ⟨ret, doc, written, holds⟩
  rcases stored_represents represents call.channel fits call.rest holds with
    ⟨refreshed, stored, storedRepresents⟩
  rcases writeReadBack_represents storedRepresents (.unknown Char) call.channel with
    ⟨next, finished, nextRepresents⟩
  rw [Function.update_idem, Function.update_self] at nextRepresents
  refine ⟨next, ?_, nextRepresents⟩
  rw [supplyStep_eq written, stored]
  exact finished

theorem supplyStep_throws (represents : Represents convert context supplies)
    {call : SupplyCall} (large : ¬ call.write.Fits) :
    supplyStep context call = .error .outOfRange := by
  rcases attribute_written represents call.channel call.write call.rest call.len with
    ⟨ret, doc, written, _⟩
  rw [supplyStep_eq written]
  cases entry : call.write with
  | powerdown down => exact absurd (by rw [entry]; intro _ other; cases other) large
  | raw integer =>
      have outside : ¬ IsInt integer.value := by
        intro inside
        apply large
        intro other equal
        rw [entry] at equal
        cases equal
        exact inside
      have refreshed :=
        refreshCurrentValue_eq represents call.channel integer call.rest doc
      rw [if_neg outside] at refreshed
      rw [SupplyWrite.startsWith_attr_raw, if_pos rfl]
      simp only [SupplyWrite.text, refreshed, Outcome.error_bind]

end Context

end IioEmu
