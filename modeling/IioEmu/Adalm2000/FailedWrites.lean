import IioEmu.Adalm2000.PowerSupply
import IioEmu.Foundation.Execution

/-! # Writes that do not succeed

The override of `chWriteAttr` acts on the document and on the kept texts before
it is known whether the call succeeds. Here a call is followed to the state it
leaves behind, whichever way it ends. -/

namespace IioEmu

def Failed : Outcome Int → Prop
  | .ok ret => ret < 0
  | .error fault => fault.isException = true

namespace Adalm2000Context

section Leaving

variable {δ : Type} [Double δ] [LibXml2] [TinyIIOD]

/-! ## Calls and the state they leave -/

def followUp (stored : Adalm2000Context δ) (stack : StackBuffer Char) (ret : Int)
    (deviceId channel : String) (chOut : Bool) (attr : String) (buf : CharArray) :
    Outcome Int × Adalm2000Context δ :=
  if startsWith deviceId "iio:device3" then
    match (if startsWith attr "raw" then stored.refreshCurrentValue (supplyOf channel).1 buf
        else .ok stored) with
    | .error fault => (.error fault, stored)
    | .ok refreshed =>
        match refreshed.writeReadBack stack deviceId channel chOut with
        | .error fault => (.error fault, refreshed)
        | .ok finished => (.ok ret, finished)
  else (.ok ret, stored)

def chWriteAttrLeaving (context : Adalm2000Context δ) (stack : StackBuffer Char)
    (deviceId channel : String) (chOut : Bool) (attr : String)
    (buf : CharArray) (len : Nat) :
    Outcome Int × Adalm2000Context δ :=
  match writeChannelAttr context.doc deviceId channel chOut attr buf len with
  | .error fault => (.error fault, context)
  | .ok (ret, doc) =>
      { context with doc := doc }.followUp stack ret deviceId channel chOut attr buf

/-- On a stack of unknown values, following the state changes nothing about the calls that
return. -/
theorem chWriteAttr_eq_leaving (context : Adalm2000Context δ) (deviceId channel : String)
    (chOut : Bool) (attr : String) (buf : CharArray) (len : Nat) :
    context.chWriteAttr deviceId channel chOut attr buf len =
      (context.chWriteAttrLeaving (.unknown Char) deviceId channel chOut attr buf len).1 >>=
        fun ret => .ok (ret,
          (context.chWriteAttrLeaving (.unknown Char) deviceId channel chOut
          attr buf len).2) := by
  rw [chWriteAttr, chWriteAttrLeaving]
  cases writeChannelAttr context.doc deviceId channel chOut attr buf len with
  | error fault => rfl
  | ok written =>
      rcases written with ⟨ret, doc⟩
      simp only [Outcome.ok_bind, followUp]
      by_cases supply : startsWith deviceId "iio:device3"
      · simp only [supply, if_true]
        by_cases raw : startsWith attr "raw"
        · simp only [raw, if_true]
          cases ({ context with doc := doc }).refreshCurrentValue
              (supplyOf channel).1 buf with
          | error fault => rfl
          | ok refreshed =>
              simp only [Outcome.ok_bind]
              cases refreshed.writeReadBack (.unknown Char) deviceId channel chOut <;> rfl
        · simp only [raw, Bool.false_eq_true, if_false]
          cases ({ context with doc := doc }).writeReadBack
            (.unknown Char) deviceId channel
            chOut <;> rfl
      · simp only [supply, Bool.false_eq_true, if_false]
        rfl

/-- The calls of the context that can change its state, with what a call finds on its stack. -/
inductive Call
  | writeAttr (deviceId attr : String) (buf : CharArray) (len : Nat) (type : IioAttrType)
  | chWriteAttr (stack : StackBuffer Char) (deviceId channel : String) (chOut : Bool)
      (attr : String) (buf : CharArray) (len : Nat)

def perform (context : Adalm2000Context δ) : Call → Outcome Int × Adalm2000Context δ
  | .writeAttr deviceId attr buf len type =>
      match writeDevAttr context.doc deviceId attr buf len type with
      | .error fault => (.error fault, context)
      | .ok (ret, doc) => (.ok ret, { context with doc := doc })
  | .chWriteAttr stack deviceId channel chOut attr buf len =>
      context.chWriteAttrLeaving stack deviceId channel chOut attr buf len

/-- The state after a call that returns or throws; there is none after any other. -/
def callStep (context : Adalm2000Context δ) (call : Call) :
    Outcome (Adalm2000Context δ) :=
  match context.perform call with
  | (.ok _, next) => .ok next
  | (.error fault, next) => if fault.isException then .ok next else .error fault

/-! ## What every reached state has -/

structure Sound (context : Adalm2000Context δ) : Prop where
  calibrated : context.psCalibCoefficients.length = 8
  writable : context.psWriteCoefficients.length = 2
  readable : context.psReadCoefficients.length = 2
  kept : context.psCurrentValues.length = 2
  free : ∀ text ∈ context.psCurrentValues, NulFree text

def supplyIndex (channel : String) : Fin 2 :=
  if startsWith channel "voltage0" then ⟨0, Nat.two_pos⟩ else ⟨1, Nat.one_lt_two⟩

omit [Double δ] [LibXml2] [TinyIIOD] in
theorem supplyOf_eq (channel : String) :
    supplyOf channel = ((supplyIndex channel).val,
      readBackChannel (supplyIndex channel)) := by
  rw [supplyOf, supplyIndex]
  split <;> rfl

omit [LibXml2] [TinyIIOD] in
theorem refreshCurrentValue_of_sound {context : Adalm2000Context δ}
    (sound : context.Sound) (supply : Fin 2) {text : String} (free : NulFree text)
    (rest : CharArray) :
    (∀ fault, stoi text = .error fault →
      context.refreshCurrentValue supply (terminated text ++ rest) = .error fault) ∧
    (∀ value, stoi text = .ok value → ∃ result,
      context.roundTrip supply value = .ok result ∧
      context.refreshCurrentValue supply (terminated text ++ rest) = .ok { context with
        psCurrentValues := context.psCurrentValues.set supply (toString result) }) := by
  have read := cString_terminated_append free rest
  constructor
  · intro fault refused
    simp only [refreshCurrentValue, read, Outcome.ok_bind, refused]
    rfl
  · intro value converted
    rcases roundTrip_returns sound.calibrated sound.writable sound.readable with
      ⟨convert, converts⟩
    have measured := converts supply value
    rw [roundTrip, Outcome.bind_eq_ok] at measured
    rcases measured with ⟨voltage, toVolts, toRaw⟩
    refine ⟨convert supply value, converts supply value, ?_⟩
    have assigned : assignAt context.psCurrentValues supply
        (toString (convert supply value)) =
        .ok (context.psCurrentValues.set supply (toString (convert supply value))) := by
      rw [assignAt, if_pos]
      rw [sound.kept]
      exact supply.isLt
    simp only [refreshCurrentValue, read, Outcome.ok_bind, converted,
      toVolts, toRaw, assigned, Outcome.pure_eq_ok]

omit [Double δ] [LibXml2] [TinyIIOD] in
theorem Sound.replaceValue {context : Adalm2000Context δ} (sound : context.Sound)
    (supply : Nat) {current : String} (currentFree : NulFree current) :
    Sound { context with
      psCurrentValues := context.psCurrentValues.set supply current } where
  calibrated := sound.calibrated
  writable := sound.writable
  readable := sound.readable
  kept := by rw [List.length_set, sound.kept]
  free := by
    intro text member
    cases List.mem_or_eq_of_mem_set member with
    | inl old => exact sound.free text old
    | inr new =>
        rw [new]
        exact currentFree

omit [Double δ] [LibXml2] [TinyIIOD] in
theorem Sound.replaceDoc {context : Adalm2000Context δ} (sound : context.Sound)
    (doc : Option XmlDoc) : Sound { context with doc := doc } :=
  ⟨sound.calibrated, sound.writable, sound.readable, sound.kept, sound.free⟩

omit [LibXml2] [TinyIIOD] in
theorem refreshCurrentValue_returned {context next : Adalm2000Context δ} {supply : Nat}
    {buf : CharArray} (returned : context.refreshCurrentValue supply buf = .ok next) :
    ∃ result : Int, next = { context with
      psCurrentValues := context.psCurrentValues.set supply (toString result) } := by
  simp only [refreshCurrentValue, Outcome.bind_eq_ok, Outcome.pure_eq_ok,
    Except.ok.injEq] at returned
  rcases returned with ⟨_, _, _, _, result, _, values, assigned, rfl⟩
  refine ⟨result, ?_⟩
  rw [assignAt] at assigned
  split at assigned
  · cases assigned
    rfl
  · cases assigned

def powerdownRead (context : Adalm2000Context δ) (stack : StackBuffer Char)
    (deviceId channel : String) (chOut : Bool) : Outcome Bool :=
  (AttributeKey.channel deviceId channel chOut "powerdown").read context.doc stack.1
    TinyIIOD.IIOD_BUFFER_SIZE >>= fun read =>
  arrayStartsWith read.2 ['1']

def readBackKey (channel : String) : AttributeKey :=
  supplyKey (.readBack, supplyIndex channel)

omit [Double δ] in
theorem writeReadBack_eq_write (context : Adalm2000Context δ) (stack : StackBuffer Char)
    (deviceId channel : String) (chOut : Bool) :
    context.writeReadBack stack deviceId channel chOut =
      context.powerdownRead stack deviceId channel chOut >>= fun down =>
      (if down then .ok "0" else vectorAt context.psCurrentValues (supplyIndex channel)) >>=
        fun text =>
      (readBackKey channel).write context.doc (terminated text) text.length >>= fun written =>
      .ok { context with doc := written.2 } := by
  simp only [writeReadBack, supplyOf_eq, powerdownRead, AttributeKey.read]
  cases readChannelAttr context.doc deviceId channel chOut "powerdown" stack.1
      TinyIIOD.IIOD_BUFFER_SIZE with
  | error fault => rfl
  | ok read =>
      simp only [Outcome.ok_bind]
      cases arrayStartsWith read.2 ['1'] with
      | error fault => rfl
      | ok down => cases down <;> rfl

omit [Double δ] in
theorem writeReadBack_returned {context next : Adalm2000Context δ}
    {stack : StackBuffer Char} {deviceId channel : String} {chOut : Bool}
    (returned : context.writeReadBack stack deviceId channel chOut = .ok next) :
    ∃ doc, next = { context with doc := doc } := by
  simp only [writeReadBack_eq_write, Outcome.bind_eq_ok, Except.ok.injEq] at returned
  rcases returned with ⟨_, _, _, _, written, _, rfl⟩
  exact ⟨written.2, rfl⟩

theorem Sound.followUp {stored : Adalm2000Context δ} (sound : stored.Sound)
    (stack : StackBuffer Char) (ret : Int) (deviceId channel : String) (chOut : Bool)
    (attr : String) (buf : CharArray) :
    (stored.followUp stack ret deviceId channel chOut attr buf).2.Sound := by
  rw [Adalm2000Context.followUp]
  split
  · have refreshedSound : ∀ refreshed, (if startsWith attr "raw" then
        stored.refreshCurrentValue (supplyOf channel).1 buf else .ok stored) = .ok refreshed →
        refreshed.Sound := by
      intro refreshed returned
      split at returned
      · rcases refreshCurrentValue_returned returned with ⟨result, rfl⟩
        exact sound.replaceValue _ (nulFree_toString result)
      · cases returned
        exact sound
    cases refreshing : (if startsWith attr "raw" then
        stored.refreshCurrentValue (supplyOf channel).1 buf else .ok stored) with
    | error fault => exact sound
    | ok refreshed =>
        simp only
        cases writing : refreshed.writeReadBack stack deviceId channel chOut with
        | error fault => exact refreshedSound refreshed refreshing
        | ok finished =>
            rcases writeReadBack_returned writing with ⟨doc, rfl⟩
            exact (refreshedSound refreshed refreshing).replaceDoc doc
  · exact sound

theorem Sound.perform {context : Adalm2000Context δ}
    (sound : context.Sound) (call : Call) :
    (context.perform call).2.Sound := by
  cases call with
  | writeAttr deviceId attr buf len type =>
      rw [Adalm2000Context.perform]
      cases writeDevAttr context.doc deviceId attr buf len type with
      | error fault => exact sound
      | ok written => exact sound.replaceDoc written.2
  | chWriteAttr stack deviceId channel chOut attr buf len =>
      rw [Adalm2000Context.perform, chWriteAttrLeaving]
      cases writeChannelAttr context.doc deviceId channel chOut attr buf len with
      | error fault => exact sound
      | ok written => exact (sound.replaceDoc written.2).followUp _ _ _ _ _ _ _

theorem Sound.callStep {context next : Adalm2000Context δ} (sound : context.Sound)
    {call : Call} (stepped : context.callStep call = .ok next) : next.Sound := by
  have performed := sound.perform call
  rw [Adalm2000Context.callStep] at stepped
  cases ended : context.perform call with
  | mk ending after =>
      rw [ended] at stepped performed
      cases ending with
      | ok ret =>
          cases stepped
          exact performed
      | error fault =>
          simp only at stepped
          split at stepped
          · cases stepped
            exact performed
          · cases stepped

theorem sound_of_run {initial context : Adalm2000Context δ} {calls : List Call}
    (constructed : construct = .ok initial)
    (ran : Execution.run callStep initial calls = .ok context) : context.Sound := by
  rcases construct_returns (δ := δ) with
    ⟨start, started, _, calibrated, writable, readable, current⟩
  cases constructed.symm.trans started
  have initialSound : initial.Sound := by
    refine ⟨calibrated, writable, readable, by rw [current]; rfl, ?_⟩
    rw [current]
    decide
  apply Execution.reached_invariant callStep Sound initialSound ?_ context
    ⟨calls, List.prefix_rfl, ran⟩
  intro state call next _ stepped sound
  exact sound.callStep stepped

/-! ## What the override does to a sound state -/

def currentValue (context : Adalm2000Context δ) (supply : Fin 2) : String :=
  context.psCurrentValues.getD supply ""

/-- The text kept after the write: of a raw attribute the value an ADC would
measure, otherwise the text kept before. -/
def refreshedText (context : Adalm2000Context δ) (supply : Fin 2) (attr text : String) :
    Outcome String :=
  if startsWith attr "raw" then toString <$> (stoi text >>= context.roundTrip supply)
  else .ok (context.currentValue supply)

omit [Double δ] in
theorem powerdownRead_noThrow (context : Adalm2000Context δ) (stack : StackBuffer Char)
    (deviceId channel : String) (chOut : Bool) :
    Outcome.NoThrow (context.powerdownRead stack deviceId channel chOut) := by
  apply Outcome.NoThrow.bind
  · exact AttributeKey.read_noThrow _ _ _ _
  · intro read
    exact arrayStartsWith_noThrow _ _

omit [Double δ] [LibXml2] [TinyIIOD] in
theorem vectorAt_currentValue {context : Adalm2000Context δ} (sound : context.Sound)
    (supply : Fin 2) :
    vectorAt context.psCurrentValues supply = .ok (context.currentValue supply) := by
  have inside : supply.val < context.psCurrentValues.length := by
    rw [sound.kept]
    exact supply.isLt
  rw [vectorAt_of_lt inside, currentValue, List.getD_eq_getElem _ _ inside]

omit [Double δ] [LibXml2] [TinyIIOD] in
theorem currentValue_free {context : Adalm2000Context δ} (sound : context.Sound)
    (supply : Fin 2) : NulFree (context.currentValue supply) := by
  have found := vectorAt_currentValue sound supply
  rw [vectorAt_eq_ok_iff] at found
  exact sound.free _ (List.mem_of_getElem? found)

omit [Double δ] [LibXml2] [TinyIIOD] in
theorem set_currentValue_iff {context : Adalm2000Context δ} (sound : context.Sound)
    (supply : Fin 2) (text : String) :
    context.psCurrentValues.set supply text = context.psCurrentValues ↔
      text = context.currentValue supply := by
  have inside : supply.val < context.psCurrentValues.length := by
    rw [sound.kept]
    exact supply.isLt
  rw [currentValue, List.getD_eq_getElem _ _ inside]
  constructor
  · intro same
    have found := congrArg (fun values : List String => values[supply.val]?) same
    simpa [inside] using found
  · intro same
    rw [same, List.set_getElem_self]

def shownText (context : Adalm2000Context δ) (channel : String) (down : Bool) : String :=
  if down then "0" else context.currentValue (supplyIndex channel)

omit [Double δ] in
theorem writeReadBack_of_sound {context : Adalm2000Context δ} (sound : context.Sound)
    (stack : StackBuffer Char) (deviceId channel : String) (chOut : Bool) :
    context.writeReadBack stack deviceId channel chOut =
      context.powerdownRead stack deviceId channel chOut >>= fun down =>
      (readBackKey channel).lookup context.doc >>= fun found =>
      .ok { context with
        doc := found.elim context.doc fun nodeAttr =>
          setValue context.doc nodeAttr (context.shownText channel down) } := by
  rw [writeReadBack_eq_write]
  congr 1
  funext down
  have shown : (if down then .ok "0"
      else vectorAt context.psCurrentValues (supplyIndex channel)) =
        .ok (context.shownText channel down) := by
    rw [vectorAt_currentValue sound, shownText]
    cases down <;> rfl
  have free : NulFree (context.shownText channel down) := by
    rw [shownText]
    split
    · decide
    · exact currentValue_free sound _
  rw [shown, Outcome.ok_bind]
  cases located : (readBackKey channel).lookup context.doc with
  | error fault => rw [AttributeKey.write_fault located]; rfl
  | ok found =>
      cases found with
      | none => rw [AttributeKey.write_absent located]; rfl
      | some nodeAttr =>
          have written := AttributeKey.write_found located free []
            (context.shownText channel down).length
          rw [List.append_nil] at written
          rw [written]
          rfl

omit [LibXml2] [TinyIIOD] in
theorem refresh_of_sound {stored : Adalm2000Context δ} (sound : stored.Sound)
    (channel attr : String) {text : String} (free : NulFree text) (rest : CharArray) :
    (if startsWith attr "raw" then
        stored.refreshCurrentValue (supplyOf channel).1 (terminated text ++ rest)
      else .ok stored) =
      stored.refreshedText (supplyIndex channel) attr text >>= fun current =>
      .ok { stored with
        psCurrentValues :=
          stored.psCurrentValues.set (supplyIndex channel) current } := by
  rw [refreshedText, supplyOf_eq]
  split
  · have refreshed := refreshCurrentValue_of_sound sound (supplyIndex channel) free rest
    cases parsed : stoi text with
    | error fault => exact refreshed.1 fault parsed
    | ok value =>
        rcases refreshed.2 value parsed with ⟨result, measured, returned⟩
        simp only [Outcome.ok_bind, measured]
        exact returned
  · rw [Outcome.ok_bind, (set_currentValue_iff sound _ _).mpr rfl]

omit [LibXml2] [TinyIIOD] in
/-- The conversion of the text is the only source of exceptions. -/
theorem isException_of_stoi {text : String} {fault : Fault}
    (failed : stoi text = .error fault) :
    fault.isException = true := by
  rw [stoi] at failed
  split at failed
  · cases failed
    rfl
  · split at failed
    · cases failed
    · cases failed
      rfl

omit [LibXml2] [TinyIIOD] in
theorem isException_of_refreshedText {context : Adalm2000Context δ}
    (sound : context.Sound) {supply : Fin 2} {attr text : String} {fault : Fault}
    (failed : context.refreshedText supply attr text = .error fault) :
    fault.isException = true := by
  rw [refreshedText] at failed
  split at failed
  · cases parsed : stoi text with
    | error other =>
        rw [parsed] at failed
        cases failed
        exact isException_of_stoi parsed
    | ok value =>
        rcases roundTrip_returns sound.calibrated sound.writable sound.readable with
          ⟨convert, converts⟩
        rw [parsed, Outcome.ok_bind, converts] at failed
        cases failed
  · cases failed

/-! ## When a failed write changes nothing -/

/-- Whatever the call finds on its stack: if it fails, the document and the kept texts are what
they were. -/
def FailureChangesNothing (context : Adalm2000Context δ) (deviceId channel : String)
    (chOut : Bool) (attr : String) (buf : CharArray) (len : Nat) : Prop :=
  ∀ stack, Failed (context.chWriteAttrLeaving stack deviceId channel chOut attr buf len).1 →
    (context.chWriteAttrLeaving stack deviceId channel chOut attr buf len).2.doc =
        context.doc ∧
      (context.chWriteAttrLeaving stack deviceId channel chOut attr buf len
        ).2.psCurrentValues = context.psCurrentValues

def MayFind (context : Adalm2000Context δ) (deviceId channel : String)
    (chOut down : Bool) :
    Prop :=
  ∃ stack, context.powerdownRead stack deviceId channel chOut = .ok down

/-- On a supply device, an attribute that is there already holds the text unless
the override accepts it; and where the attribute is absent the override refuses
the text, cannot finish, or finds everything it may store stored already. -/
structure FailsHarmlessly (context : Adalm2000Context δ) (deviceId channel : String)
    (chOut : Bool) (attr text : String) : Prop where
  present : startsWith deviceId "iio:device3" → ∀ cell fault,
    contents context.doc (.channel deviceId channel chOut attr) = .ok (some cell) →
    context.refreshedText (supplyIndex channel) attr text =
    .error fault → cell = some text
  absent : startsWith deviceId "iio:device3" → ∀ current down cell,
    contents context.doc (.channel deviceId channel chOut attr) = .ok none →
    context.refreshedText (supplyIndex channel) attr text = .ok current →
    context.MayFind deviceId channel chOut down →
    contents context.doc (readBackKey channel) = .ok cell →
      current = context.currentValue (supplyIndex channel) ∧
        ∀ value, cell = some value → value = some (if down then "0" else current)

omit [Double δ] in
/-- Without a powerdown attribute, what the stack holds decides. -/
theorem mayFind_of_absent {context : Adalm2000Context δ} {deviceId channel : String}
    {chOut : Bool}
    (absent : contents context.doc (.channel deviceId channel chOut "powerdown") = .ok none)
    (down : Bool) : context.MayFind deviceId channel chOut down := by
  have sized : 0 < TinyIIOD.IIOD_BUFFER_SIZE :=
    Nat.lt_of_lt_of_le (by decide) TinyIIOD.bufferSize_large
  refine ⟨⟨List.replicate TinyIIOD.IIOD_BUFFER_SIZE (some (if down then '1' else nul)),
    List.length_replicate⟩, ?_⟩
  rw [powerdownRead, AttributeKey.read_eq, absent]
  cases size : TinyIIOD.IIOD_BUFFER_SIZE with
  | zero => omega
  | succ size => cases down <;> simp [List.replicate_succ, arrayStartsWith, nul]

section Cases

variable {context : Adalm2000Context δ} {stack : StackBuffer Char}
  {deviceId channel : String}
  {chOut : Bool} {attr text : String}

theorem followUp_of_sound (sound : context.Sound)
    (supply : startsWith deviceId "iio:device3") (free : NulFree text)
    (rest : CharArray) (ret : Int) :
    context.followUp stack ret deviceId channel chOut attr (terminated text ++ rest) =
      match context.refreshedText (supplyIndex channel) attr text with
      | .error fault => (.error fault, context)
      | .ok current =>
          let refreshed := { context with
            psCurrentValues := context.psCurrentValues.set (supplyIndex channel) current }
          match refreshed.writeReadBack stack deviceId channel chOut with
          | .error fault => (.error fault, refreshed)
          | .ok finished => (.ok ret, finished) := by
  rw [followUp, if_pos supply, refresh_of_sound sound channel attr free rest]
  cases context.refreshedText (supplyIndex channel) attr text <;> rfl

omit [LibXml2] [TinyIIOD] in
theorem nulFree_of_refreshedText (sound : context.Sound)
    {supply : Fin 2} {current : String}
    (refreshed : context.refreshedText supply attr text = .ok current) :
    NulFree current := by
  rw [refreshedText] at refreshed
  split at refreshed
  · rcases Outcome.map_eq_ok.mp refreshed with ⟨result, _, rfl⟩
    exact nulFree_toString result
  · cases refreshed
    exact currentValue_free sound supply

omit [Double δ] [LibXml2] [TinyIIOD] in
theorem currentValue_set (sound : context.Sound) (supply : Fin 2) (current : String) :
    ({ context with psCurrentValues := context.psCurrentValues.set supply current }
      ).currentValue supply = current := by
  have inside : supply.val < context.psCurrentValues.length := by
    rw [sound.kept]
    exact supply.isLt
  simp [currentValue, inside]

def readBackFound (context : Adalm2000Context δ) (stack : StackBuffer Char)
    (deviceId channel : String) (chOut : Bool) : Outcome (Bool × Option NodePointer) :=
  context.powerdownRead stack deviceId channel chOut >>= fun down =>
  (readBackKey channel).lookup context.doc >>= fun found => .ok (down, found)

omit [Double δ] in
theorem readBackFound_noThrow :
    Outcome.NoThrow (context.readBackFound stack deviceId channel chOut) := by
  apply (powerdownRead_noThrow _ _ _ _ _).bind
  intro down
  exact ((readBackKey channel).lookup_noThrow _).bind fun _ => Outcome.noThrow_ok _

theorem followUp_refreshed (sound : context.Sound)
    (supply : startsWith deviceId "iio:device3") (free : NulFree text) (rest : CharArray)
    (ret : Int) {current : String}
    (refreshing : context.refreshedText (supplyIndex channel) attr text = .ok current) :
    context.followUp stack ret deviceId channel chOut attr (terminated text ++ rest) =
      match context.readBackFound stack deviceId channel chOut with
      | .error fault => (.error fault, { context with
          psCurrentValues := context.psCurrentValues.set (supplyIndex channel) current })
      | .ok (down, found) => (.ok ret, { context with
          doc := found.elim context.doc fun nodeAttr =>
            setValue context.doc nodeAttr (if down then "0" else current)
          psCurrentValues :=
            context.psCurrentValues.set (supplyIndex channel) current }) := by
  have refreshedSound := sound.replaceValue (supplyIndex channel)
    (nulFree_of_refreshedText sound refreshing)
  rw [followUp_of_sound sound supply free rest, refreshing]
  simp only [writeReadBack_of_sound refreshedSound, shownText,
    currentValue_set sound (supplyIndex channel) current]
  have sameRead : ({ context with
      psCurrentValues := context.psCurrentValues.set (supplyIndex channel) current }
        ).powerdownRead stack deviceId channel chOut =
      context.powerdownRead stack deviceId channel chOut := rfl
  rw [sameRead, readBackFound]
  cases context.powerdownRead stack deviceId channel chOut with
  | error fault => rfl
  | ok down =>
      simp only [Outcome.ok_bind]
      cases (readBackKey channel).lookup context.doc <;> rfl

theorem leaving_absent
    (absent : (AttributeKey.channel deviceId channel chOut attr).lookup
      context.doc = .ok none)
    (buf : CharArray) (len : Nat) :
    context.chWriteAttrLeaving stack deviceId channel chOut attr buf len =
      context.followUp stack (-ENOENT) deviceId channel chOut attr buf := by
  have written : writeChannelAttr context.doc deviceId channel chOut attr buf len =
      .ok (-ENOENT, context.doc) := AttributeKey.write_absent absent buf len
  rw [chWriteAttrLeaving, written]

theorem leaving_found {nodeAttr : NodePointer}
    (found : (AttributeKey.channel deviceId channel chOut attr).lookup context.doc =
      .ok (some nodeAttr)) (free : NulFree text) (rest : CharArray) (len : Nat) :
    context.chWriteAttrLeaving stack deviceId channel chOut attr
      (terminated text ++ rest) len =
      { context with doc := setValue context.doc nodeAttr text }.followUp stack
        ((min text.length len : Nat) + 1) deviceId channel chOut attr
        (terminated text ++ rest) := by
  have written : writeChannelAttr context.doc deviceId channel chOut attr
      (terminated text ++ rest) len =
        .ok ((min text.length len : Nat) + 1, setValue context.doc nodeAttr text) :=
    AttributeKey.write_found found free rest len
  rw [chWriteAttrLeaving, written]

theorem failsHarmlessly_absent_iff (keeps : KeepsSetValues)
    (supply : startsWith deviceId "iio:device3")
    (held : contents context.doc (.channel deviceId channel chOut attr) = .ok none) :
    context.FailsHarmlessly deviceId channel chOut attr text ↔
      ∀ stack current, context.refreshedText (supplyIndex channel) attr text = .ok current →
        ∀ down found, context.readBackFound stack deviceId channel chOut = .ok (down, found) →
          current = context.currentValue (supplyIndex channel) ∧
            (found.elim context.doc fun nodeAttr =>
              setValue context.doc nodeAttr (if down then "0" else current)) =
              context.doc := by
  constructor
  · intro harmless stack current refreshing down found looked
    simp only [readBackFound, Outcome.bind_eq_ok, Except.ok.injEq,
      Prod.mk.injEq] at looked
    rcases looked with ⟨seen, read, place, located, rfl, rfl⟩
    have shown : contents context.doc (readBackKey channel) =
      .ok (place.map fun nodeAttr =>
        context.doc.bind fun document => document.getProp nodeAttr "value") := by
      rw [contents, located]
      rfl
    have stays :=
      harmless.absent supply current seen _ held refreshing ⟨stack, read⟩ shown
    apply And.intro stays.1
    rw [elim_setValue_eq_self_iff keeps located]
    intro cell holds value some
    rw [shown] at holds
    cases holds
    exact stays.2 value some
  · intro stays
    constructor
    · intro _ cell fault holds
      rw [held] at holds
      cases holds
    · intro _ current down cell _ refreshing mayFind shown
      rcases mayFind with ⟨stack, read⟩
      have located := shown
      rw [contents, Outcome.bind_eq_ok] at located
      rcases located with ⟨found, located, _⟩
      have looked : context.readBackFound stack deviceId channel chOut =
          .ok (down, found) := by
        rw [readBackFound, read, Outcome.ok_bind, located]
        rfl
      have unchanged := stays stack current refreshing down found looked
      rw [elim_setValue_eq_self_iff keeps located] at unchanged
      exact ⟨unchanged.1, unchanged.2 cell shown⟩

theorem failsHarmlessly_of_fault {fault : Fault}
    (unheld : contents context.doc (.channel deviceId channel chOut attr) = .error fault) :
    context.FailsHarmlessly deviceId channel chOut attr text := by
  constructor
  · intro _ _ _ held
    rw [unheld] at held
    cases held
  · intro _ _ _ _ held
    rw [unheld] at held
    cases held

theorem failsHarmlessly_of_refused {fault : Fault}
    (absent : contents context.doc (.channel deviceId channel chOut attr) = .ok none)
    (refused : context.refreshedText (supplyIndex channel) attr text = .error fault) :
    context.FailsHarmlessly deviceId channel chOut attr text := by
  constructor
  · intro _ _ _ held
    rw [absent] at held
    cases held
  · intro _ _ _ _ _ refreshed
    rw [refused] at refreshed
    cases refreshed

theorem failsHarmlessly_of_accepted {cell : Option String} {current : String}
    (held : contents context.doc (.channel deviceId channel chOut attr) = .ok (some cell))
    (accepted : context.refreshedText (supplyIndex channel) attr text = .ok current) :
    context.FailsHarmlessly deviceId channel chOut attr text := by
  constructor
  · intro _ _ fault _ failed
    rw [accepted] at failed
    cases failed
  · intro _ _ _ _ absent
    rw [held] at absent
    cases absent

/-- Of a channel that is not there, and whose read-back is: the call is harmless if the text is
refused, or if zero is kept and shown already. -/
theorem failsHarmlessly_missing_iff (supply : startsWith deviceId "iio:device3")
    (absent : contents context.doc (.channel deviceId channel chOut attr) = .ok none)
    (powerless : contents context.doc
      (.channel deviceId channel chOut "powerdown") = .ok none)
    {shown : Option String}
    (shows : contents context.doc (readBackKey channel) = .ok (some shown)) :
    context.FailsHarmlessly deviceId channel chOut attr text ↔
      ∀ current, context.refreshedText (supplyIndex channel) attr text = .ok current →
        current = context.currentValue (supplyIndex channel) ∧ current = "0" ∧
          shown = some "0" := by
  constructor
  · intro harmless current refreshing
    have seen (down : Bool) := harmless.absent supply current down _ absent refreshing
      (mayFind_of_absent powerless down) shows
    have whenDown := (seen true).2 shown rfl
    have whenUp := (seen false).2 shown rfl
    refine ⟨(seen true).1, ?_, whenDown⟩
    rw [whenDown] at whenUp
    exact (Option.some.inj whenUp).symm
  · intro stored
    constructor
    · intro _ cell fault holds
      rw [absent] at holds
      cases holds
    · intro _ current down cell _ refreshing _ holds
      rcases stored current refreshing with ⟨kept, zero, shownZero⟩
      refine ⟨kept, ?_⟩
      intro value found
      rw [shows] at holds
      cases holds
      cases found
      rw [shownZero, zero]
      cases down <;> rfl

/-- An absent attribute: the call can only return the negative code, and does so
after storing what the override stores. -/
theorem changesNothing_absent_iff (keeps : KeepsSetValues) (sound : context.Sound)
    (supply : startsWith deviceId "iio:device3") (free : NulFree text)
    (absent : (AttributeKey.channel deviceId channel chOut attr).lookup
      context.doc = .ok none)
    (rest : CharArray) (len : Nat) :
    context.FailureChangesNothing deviceId channel chOut attr
      (terminated text ++ rest) len ↔
      context.FailsHarmlessly deviceId channel chOut attr text := by
  have held : contents context.doc (.channel deviceId channel chOut attr) = .ok none := by
    rw [contents, absent]
    rfl
  rw [failsHarmlessly_absent_iff keeps supply held, FailureChangesNothing]
  apply forall_congr'
  intro stack
  rw [leaving_absent absent]
  cases refreshing : context.refreshedText (supplyIndex channel) attr text with
  | error fault =>
      rw [followUp_of_sound sound supply free rest, refreshing]
      simp
  | ok current =>
      rw [followUp_refreshed sound supply free rest _ refreshing]
      cases looked : context.readBackFound stack deviceId channel chOut with
      | error fault =>
          have quiet := readBackFound_noThrow fault looked
          simp [Failed, quiet]
      | ok seen =>
          rcases seen with ⟨down, found⟩
          simp only [Failed, set_currentValue_iff sound]
          constructor
          · intro unchanged other same seenDown seenFound equal
            cases same
            cases equal
            exact (unchanged (by decide)).symm
          · intro stays _
            exact (stays current rfl down found rfl).symm

/-- An attribute that is there: the call fails only by the exception of the
conversion, after the text was stored. -/
theorem changesNothing_present_iff (keeps : KeepsSetValues) (sound : context.Sound)
    (supply : startsWith deviceId "iio:device3") (free : NulFree text)
    {nodeAttr : NodePointer}
    (found : (AttributeKey.channel deviceId channel chOut attr).lookup context.doc =
      .ok (some nodeAttr))
    (rest : CharArray) (len : Nat) :
    context.FailureChangesNothing deviceId channel chOut attr
      (terminated text ++ rest) len ↔
      context.FailsHarmlessly deviceId channel chOut attr text := by
  have stored := sound.replaceDoc (setValue context.doc nodeAttr text)
  have same : ({ context with doc := setValue context.doc nodeAttr text }).refreshedText
      (supplyIndex channel) attr text =
        context.refreshedText (supplyIndex channel) attr text := rfl
  have unchanged := setValue_eq_self_iff keeps found text
  have held : contents context.doc (.channel deviceId channel chOut attr) =
      .ok (some (context.doc.bind fun document => document.getProp nodeAttr "value")) := by
    rw [contents, found]
    rfl
  cases refreshing : context.refreshedText (supplyIndex channel) attr text with
  | error fault =>
      have thrown := isException_of_refreshedText sound refreshing
      have leaves (stack : StackBuffer Char) :
          context.chWriteAttrLeaving stack deviceId channel chOut attr
              (terminated text ++ rest) len =
            (.error fault,
                { context with doc := setValue context.doc nodeAttr text }) := by
        rw [leaving_found found free, followUp_of_sound stored supply free rest, same,
          refreshing]
      simp only [FailureChangesNothing, leaves, Failed, thrown, unchanged,
        forall_const, and_true]
      constructor
      · intro holds
        constructor
        · intro _ cell _ heldCell _
          rw [holds (.unknown Char)] at heldCell
          cases heldCell
          rfl
        · intro _ _ _ _ absent
          rw [held] at absent
          cases absent
      · intro harmless _
        rw [held, harmless.present supply _ fault held refreshing]
  | ok current =>
      have succeeds : ¬ ((min text.length len : Nat) + 1 : Int) < 0 := by omega
      simp only [failsHarmlessly_of_accepted held refreshing, iff_true]
      intro stack failed
      rw [leaving_found found free, followUp_refreshed stored supply free rest _
        (same.trans refreshing)] at failed
      cases looked : ({ context with doc := setValue context.doc nodeAttr text }
          ).readBackFound stack deviceId channel chOut with
      | error fault =>
          rw [looked] at failed
          rw [Failed, readBackFound_noThrow fault looked] at failed
          cases failed
      | ok seen =>
          rw [looked] at failed
          exact absurd failed succeeds

end Cases

/-- In every state reached from construction by calls that return or throw, a
failed write to a channel changes nothing exactly when it fails harmlessly. -/
theorem failed_write_changes_nothing_iff (keeps : KeepsSetValues)
    {initial context : Adalm2000Context δ} (constructed : construct = .ok initial)
    {calls : List Call} (ran : Execution.run callStep initial calls = .ok context)
    (deviceId channel : String) (chOut : Bool) (attr : String) {text : String}
    (free : NulFree text) (rest : CharArray) (len : Nat) :
    context.FailureChangesNothing deviceId channel chOut attr
      (terminated text ++ rest) len ↔
      context.FailsHarmlessly deviceId channel chOut attr text := by
  have sound := sound_of_run constructed ran
  cases located :
      (AttributeKey.channel deviceId channel chOut attr).lookup context.doc with
  | error fault =>
      have faulted (stack : StackBuffer Char) :
          context.chWriteAttrLeaving stack deviceId channel chOut attr
            (terminated text ++ rest) len = (.error fault, context) := by
        have written : writeChannelAttr context.doc deviceId channel chOut attr
            (terminated text ++ rest) len = .error fault :=
              AttributeKey.write_fault located _ _
        rw [chWriteAttrLeaving, written]
      have unheld : contents context.doc (.channel deviceId channel chOut attr) =
          .error fault := by
        rw [contents, located]
        rfl
      have harmless : context.FailsHarmlessly deviceId channel chOut attr text :=
        failsHarmlessly_of_fault unheld
      simp [FailureChangesNothing, faulted, harmless]
  | ok found =>
      by_cases supply : startsWith deviceId "iio:device3"
      · cases found with
        | none => exact changesNothing_absent_iff keeps sound supply free located rest len
        | some nodeAttr =>
            exact changesNothing_present_iff keeps sound supply free located rest len
      · have harmless : context.FailsHarmlessly deviceId channel chOut attr text :=
          ⟨fun other => absurd other supply, fun other => absurd other supply⟩
        simp only [harmless, iff_true]
        cases found with
        | none =>
            intro stack _
            rw [leaving_absent located, followUp, if_neg supply]
            exact ⟨rfl, rfl⟩
        | some nodeAttr =>
            intro stack failed
            rw [leaving_found located free, followUp, if_neg supply] at failed
            simp only [Failed] at failed
            omega

end Leaving

section Examples

open scoped Reference

/-- A raw value that is no number is stored before the conversion throws. -/
theorem refused_raw_value_is_stored :
    ¬ ∀ (initial context : Adalm2000Context Rat) (calls : List Call),
      construct = .ok initial → Execution.run callStep initial calls = .ok context →
      ∀ (deviceId channel : String) (chOut : Bool) (attr text : String) (rest : CharArray)
        (len : Nat), NulFree text →
        context.FailureChangesNothing deviceId channel chOut attr
          (terminated text ++ rest) len := by
  intro unchanged
  have stored : (construct : Outcome (Adalm2000Context Rat)).map (fun initial =>
      let left := initial.chWriteAttrLeaving (.unknown Char) "iio:device3"
        "voltage0" true "raw"
        (terminated "abc" ++ []) 3
      (left.1, contents initial.doc (supplyKey (.raw, 0)),
        contents left.2.doc (supplyKey (.raw, 0)))) =
        .ok (.error .invalidArgument, .ok (some (some "0.000000")),
          .ok (some (some "abc"))) := by
    decide +kernel
  rcases Outcome.map_eq_ok.mp stored with ⟨initial, constructed, seen⟩
  simp only [Prod.mk.injEq] at seen
  have failed :
      Failed (initial.chWriteAttrLeaving (.unknown Char) "iio:device3" "voltage0" true "raw"
      (terminated "abc" ++ []) 3).1 := by
    rw [seen.1]
    rfl
  have same := (unchanged initial initial [] constructed rfl "iio:device3" "voltage0" true
    "raw" "abc" [] 3 (by decide) (.unknown Char) failed).1
  have differ := seen.2.2
  rw [same, seen.2.1] at differ
  simp at differ

theorem refused_text_for_absent_attribute :
    ∃ initial : Adalm2000Context Rat, construct = .ok initial ∧
      Failed (initial.chWriteAttrLeaving (.unknown Char) "iio:device3" "voltage0" true "raw2"
        (terminated "abc" ++ []) 3).1 ∧
      (initial.chWriteAttrLeaving (.unknown Char) "iio:device3" "voltage0" true "raw2"
        (terminated "abc" ++ []) 3).2.doc = initial.doc := by
  have seen : (construct : Outcome (Adalm2000Context Rat)).map (fun initial =>
      ((initial.chWriteAttrLeaving (.unknown Char) "iio:device3" "voltage0" true "raw2"
          (terminated "abc" ++ []) 3).1,
        contents initial.doc (.channel "iio:device3" "voltage0" true "raw2"),
        initial.refreshedText (supplyIndex "voltage0") "raw2" "abc")) =
        .ok (.error .invalidArgument, .ok none, .error .invalidArgument) := by
    decide +kernel
  rcases Outcome.map_eq_ok.mp seen with ⟨initial, constructed, seen⟩
  simp only [Prod.mk.injEq] at seen
  have failed :
      Failed (initial.chWriteAttrLeaving (.unknown Char) "iio:device3" "voltage0" true "raw2"
      (terminated "abc" ++ []) 3).1 := by
    rw [seen.1]
    rfl
  have harmless : initial.FailsHarmlessly "iio:device3" "voltage0" true "raw2" "abc" :=
    failsHarmlessly_of_refused seen.2.1 seen.2.2
  have unchanged := (failed_write_changes_nothing_iff keepsSetValues_reference constructed
    (show Execution.run callStep initial [] = .ok initial from rfl) "iio:device3" "voltage0"
    true "raw2" (show NulFree "abc" by decide) [] 3).mpr harmless
  exact ⟨initial, constructed, failed, (unchanged _ failed).1⟩

end Examples

end Adalm2000Context

end IioEmu
