import IioEmu.Devices.M2kDAC.AcceptedRates

/-! # The rate of a frame

A write scales its samples for the rate that was loaded last. A transfer loads the rate again
and upsamples with what it finds then, while a client may have written another rate between
the two. -/

namespace IioEmu.M2kDAC

open Execution

section FrameRates

variable {δ : Type} [Double δ]

structure Sample (δ : Type) where
  raw : Word
  rate : δ

def Sample.volts (sample : Sample δ) : Outcome δ :=
  (construct "" false false sample.rate 0).convertRawToVolts sample.raw

theorem mapM_volts (dac : M2kDAC δ) (words : List Word) :
    (words.map (fun raw => Sample.mk raw dac.samplerate)).mapM Sample.volts =
      words.mapM dac.convertRawToVolts := by
  rw [List.mapM_map]
  rfl

structure Session (δ : Type) where
  doc : Option XmlDoc
  dac : M2kDAC δ
  frame : List (Sample δ)

inductive Call
  | writeAttr (write : RateWrite)
  | openDev (sampleSize mask : Nat) (cyclic : Bool)
  | writeDev (buf : List Byte) (offset bytesCount : Nat)
  | transferMemToDev (bytesCount : Nat)

def scaled (dac : M2kDAC δ) (buf : List Byte) (bytesCount : Nat) :
    Outcome (List (Sample δ)) :=
  if dac.enable then do
    let words ← loadWords buf (bytesCount / 2)
    return words.map (fun raw => ⟨raw, dac.samplerate⟩)
  else .ok []

theorem convertRawToVolts_cleared (dac : M2kDAC δ) :
    dac.cleared.convertRawToVolts = dac.convertRawToVolts := by
  funext raw
  rw [convertRawToVolts, convertRawToVolts, getFilterCompensation, getFilterCompensation,
    samplerate_cleared]

variable [LibXml2] [TinyIIOD]

def Session.step (session : Session δ) : Call → Outcome (Session δ)
  | .writeAttr write => do
      let doc ← IioEmu.writeAttr session.dac.deviceId session.doc write
      return { session with doc := doc }
  | .openDev sampleSize mask cyclic => do
      let dac ← session.dac.step (.openDev session.doc sampleSize mask cyclic)
      return { session with dac := dac }
  | .writeDev buf offset bytesCount => do
      let dac ← session.dac.step (.writeDev buf offset bytesCount)
      let samples ← session.dac.scaled buf bytesCount
      return { session with dac := dac, frame := session.frame ++ samples }
  | .transferMemToDev bytesCount => do
      let dac ← session.dac.step (.transferMemToDev session.doc bytesCount)
      return { session with dac := dac, frame := [] }

/-! ## The frame is what the device stores -/

/-- After a transfer the record is empty; the device stores what the recorded samples come
to from the first write on. -/
structure Session.Recorded (session : Session δ) : Prop where
  pending : session.dac.resetBuffer = true → session.frame = []
  stored : session.dac.resetBuffer = false →
    session.frame.mapM Sample.volts = .ok session.dac.samples

theorem Session.Recorded.step {session next : Session δ} (recorded : session.Recorded)
    {call : Call} (stepped : session.step call = .ok next) : next.Recorded := by
  cases call with
  | writeAttr write =>
      simp only [Session.step, Outcome.bind_eq_ok, Outcome.pure_eq_ok,
        Except.ok.injEq] at stepped
      rcases stepped with ⟨doc, _, rfl⟩
      exact ⟨recorded.pending, recorded.stored⟩
  | openDev sampleSize mask cyclic =>
      simp only [Session.step, Outcome.bind_eq_ok, Outcome.pure_eq_ok,
        Except.ok.injEq] at stepped
      rcases stepped with ⟨dac, opened, rfl⟩
      rcases step_openDev.mp opened with ⟨loaded, returned, rfl⟩
      rw [eq_of_loadCalibValues returned]
      exact ⟨recorded.pending, recorded.stored⟩
  | writeDev buf offset bytesCount =>
      simp only [Session.step, Outcome.bind_eq_ok, Outcome.pure_eq_ok,
        Except.ok.injEq] at stepped
      rcases stepped with ⟨dac, written, samples, scaledTo, rfl⟩
      rcases step_writeDev.mp written with ⟨disabled, rfl⟩ |
        ⟨enabled, words, volts, read, converted, rfl⟩
      · rw [scaled, if_neg (by simp [disabled])] at scaledTo
        cases scaledTo
        rw [List.append_nil]
        exact recorded
      · rw [scaled, if_pos enabled, read] at scaledTo
        cases scaledTo
        rw [convertRawToVolts_cleared] at converted
        have volted : (session.frame ++ words.map fun raw =>
            Sample.mk raw session.dac.samplerate).mapM Sample.volts =
              session.frame.mapM Sample.volts >>= fun earlier => .ok (earlier ++ volts) := by
          rw [List.mapM_append, mapM_volts, converted]
          rfl
        cases flag : session.dac.resetBuffer with
        | true =>
            rw [recorded.pending flag] at volted ⊢
            rw [cleared, if_pos flag]
            refine ⟨fun appending => ?_, fun _ => volted⟩
            cases appending
        | false =>
            rw [recorded.stored flag] at volted
            rw [cleared, if_neg (by simp [flag])]
            refine ⟨fun pending => ?_, fun _ => volted⟩
            rw [flag] at pending
            cases pending
  | transferMemToDev bytesCount =>
      simp only [Session.step, Outcome.bind_eq_ok, Outcome.pure_eq_ok,
        Except.ok.injEq] at stepped
      rcases stepped with ⟨dac, transferred, rfl⟩
      rcases step_transferMemToDev.mp transferred with ⟨loaded, samples, _, _, rfl⟩
      exact ⟨fun _ => rfl, fun appending => by cases appending⟩

/-! ## What the calls alone say -/

/-- What a client knows from its own calls: the texts it stored, the rate the device loaded,
and the rates it scaled the samples of the frame for. -/
structure RatePlan (δ : Type) where
  texts : RateTexts
  loaded : δ
  enabled : Bool
  frame : List δ

def RatePlan.rate (plan : RatePlan δ) : δ := safeStod plan.texts.samplingFrequency

def RatePlan.after (plan : RatePlan δ) : Call → RatePlan δ
  | .writeAttr write => { plan with texts := plan.texts.after write }
  | .openDev _ mask _ => { plan with loaded := plan.rate, enabled := mask != 0 }
  | .writeDev _ _ bytesCount =>
      if plan.enabled then
        { plan with frame := plan.frame ++ List.replicate (bytesCount / 2) plan.loaded }
      else plan
  | .transferMemToDev _ => { plan with loaded := plan.rate, frame := [] }

omit [LibXml2] [TinyIIOD] in
theorem RatePlan.after_writeDev (plan : RatePlan δ) (buf : List Byte)
    (offset bytesCount : Nat) :
    plan.after (.writeDev buf offset bytesCount) = { plan with
      frame := plan.frame ++
        if plan.enabled then List.replicate (bytesCount / 2) plan.loaded else [] } := by
  rw [RatePlan.after]
  split
  · rfl
  · rw [List.append_nil]

def RatePlan.Agrees (plan : RatePlan δ) : Prop := ∀ rate ∈ plan.frame, rate = plan.rate

structure Tracks (deviceId : String) (plan : RatePlan δ)
    (session : Session δ) : Prop where
  named : session.dac.deviceId = deviceId
  holds : HoldsRates session.doc deviceId plan.texts.samplingFrequency
    plan.texts.oversamplingRatio
  separates : Separates session.doc
  loaded : session.dac.samplerate = plan.loaded
  enabled : session.dac.enable = plan.enabled
  frame : session.frame.map Sample.rate = plan.frame

omit [Double δ] [LibXml2] [TinyIIOD] in
theorem rates_of_scaled {dac : M2kDAC δ} {buf : List Byte} {bytesCount : Nat}
    {samples : List (Sample δ)} (scaledTo : dac.scaled buf bytesCount = .ok samples) :
    samples.map Sample.rate =
      if dac.enable then List.replicate (bytesCount / 2) dac.samplerate else [] := by
  rw [scaled] at scaledTo
  split at scaledTo
  · rename_i enabled
    simp only [Outcome.bind_eq_ok, Outcome.pure_eq_ok, Except.ok.injEq] at scaledTo
    rcases scaledTo with ⟨words, read, rfl⟩
    rw [if_pos enabled, ← length_of_loadWords read, List.map_map]
    apply List.map_const'
  · rename_i disabled
    rw [if_neg disabled]
    cases scaledTo
    rfl

theorem Tracks.step {deviceId : String} {plan : RatePlan δ} {session next : Session δ}
    (tracks : Tracks deviceId plan session) {call : Call}
    (stepped : session.step call = .ok next) :
    Tracks deviceId (plan.after call) next := by
  have rated {dac loaded : M2kDAC δ}
      (returned : dac.loadCalibValues session.doc = .ok loaded)
      (named : dac.deviceId = deviceId) : loaded.samplerate = plan.rate := by
    subst named
    rcases (loadCalibValues_eq_ok_iff tracks.holds).mp returned with ⟨_, _, ratio, _, rfl⟩
    rfl
  cases call with
  | writeAttr write =>
      simp only [Session.step, Outcome.bind_eq_ok, Outcome.pure_eq_ok,
        Except.ok.injEq] at stepped
      rcases stepped with ⟨doc, written, rfl⟩
      rw [tracks.named] at written
      rcases tracks.holds.writeAttr tracks.separates write with
        ⟨other, writes, apart, held⟩
      rw [written, Except.ok.injEq] at writes
      subst writes
      exact ⟨tracks.named, held, apart, tracks.loaded, tracks.enabled, tracks.frame⟩
  | openDev sampleSize mask cyclic =>
      simp only [Session.step, Outcome.bind_eq_ok, Outcome.pure_eq_ok,
        Except.ok.injEq] at stepped
      rcases stepped with ⟨dac, opened, rfl⟩
      rcases step_openDev.mp opened with ⟨loaded, returned, rfl⟩
      have current := rated returned tracks.named
      refine ⟨?_, tracks.holds, tracks.separates, current, rfl, tracks.frame⟩
      rw [eq_of_loadCalibValues returned]
      exact tracks.named
  | writeDev buf offset bytesCount =>
      simp only [Session.step, Outcome.bind_eq_ok, Outcome.pure_eq_ok,
        Except.ok.injEq] at stepped
      rcases stepped with ⟨dac, written, samples, scaledTo, rfl⟩
      have kept : dac = { session.dac with
          samples := dac.samples, currentIndex := dac.currentIndex
          resetBuffer := dac.resetBuffer } := by
        rcases step_writeDev.mp written with ⟨_, rfl⟩ | ⟨_, _, _, _, _, rfl⟩
        · rfl
        · rw [cleared]
          split <;> rfl
      have rates := rates_of_scaled scaledTo
      rw [tracks.enabled, tracks.loaded] at rates
      rw [RatePlan.after_writeDev]
      refine ⟨?_, tracks.holds, tracks.separates, ?_, ?_, ?_⟩
      · rw [kept]
        exact tracks.named
      · rw [kept]
        exact tracks.loaded
      · rw [kept]
        exact tracks.enabled
      · rw [List.map_append, tracks.frame, rates]
  | transferMemToDev bytesCount =>
      simp only [Session.step, Outcome.bind_eq_ok, Outcome.pure_eq_ok,
        Except.ok.injEq] at stepped
      rcases stepped with ⟨dac, transferred, rfl⟩
      rcases step_transferMemToDev.mp transferred with ⟨loaded, samples, returned, _, rfl⟩
      have same := eq_of_loadCalibValues returned
      have current := rated returned tracks.named
      refine ⟨?_, tracks.holds, tracks.separates, current, ?_, rfl⟩
      · rw [same]
        exact tracks.named
      · rw [same]
        exact tracks.enabled

/-! ## Whole runs -/

theorem tracks_of_run {deviceId : String} {plan : RatePlan δ} {session final : Session δ}
    (tracks : Tracks deviceId plan session) {calls : List Call}
    (ran : run Session.step session calls = .ok final) :
    Tracks deviceId (calls.foldl RatePlan.after plan) final := by
  induction calls generalizing session plan with
  | nil =>
      cases ran
      exact tracks
  | cons call calls induction =>
      rw [run_cons_eq_ok_iff] at ran
      rcases ran with ⟨next, stepped, rest⟩
      exact induction (tracks.step stepped) rest

theorem recorded_of_run {session final : Session δ} (recorded : session.Recorded)
    {calls : List Call} (ran : run Session.step session calls = .ok final) :
    final.Recorded := by
  apply reached_invariant Session.step Session.Recorded recorded _ final
    ⟨calls, List.prefix_rfl, ran⟩
  intro state call next _ stepped holds
  exact holds.step stepped

/-- The samples the transfer upsamples are those of the frame, each scaled for the rate whose
ratio the transfer upsamples with. -/
def Session.OneRate (session : Session δ) (next : M2kDAC δ) : Prop :=
  session.frame ≠ [] →
    session.frame.mapM Sample.volts = .ok session.dac.samples ∧
    analogicalInterpolation session.dac.samples next.ratio = .ok next.samples ∧
    ∀ sample ∈ session.frame, sample.rate = next.samplerate

/-- A frame is scaled and upsampled at one rate exactly when each of its samples was scaled for
the rate that the client has stored when it is transferred. -/
theorem one_rate_iff {doc : Option XmlDoc}
    (wellFormed : WellFormed doc) {deviceId : String} {texts : RateTexts}
    (holds : HoldsRates doc deviceId texts.samplingFrequency texts.oversamplingRatio)
    (cyclic enable : Bool) (samplerate : δ) (oversamplingRatio : Nat)
    {calls : List Call} {session : Session δ}
    (ran : run Session.step ⟨doc,
      construct deviceId cyclic enable samplerate oversamplingRatio, []⟩ calls =
      .ok session) {bytesCount : Nat} {ret : Int} {next : M2kDAC δ}
    (transferred : session.dac.transferMemToDev session.doc bytesCount = .ok (ret, next)) :
    session.OneRate next ↔
      (calls.foldl RatePlan.after ⟨texts, samplerate, enable, []⟩).Agrees := by
  have tracks : Tracks deviceId
      (calls.foldl RatePlan.after ⟨texts, samplerate, enable, []⟩) session :=
    tracks_of_run ⟨rfl, holds, separates_of_wellFormed wellFormed, rfl, rfl, rfl⟩ ran
  have recorded := recorded_of_run
    ⟨fun _ => rfl, fun appending => by cases appending⟩ ran
  generalize calls.foldl RatePlan.after ⟨texts, samplerate, enable, []⟩ = plan at tracks ⊢
  have stepped :
      session.dac.step (.transferMemToDev session.doc bytesCount) = .ok next := by
    rw [step, transferred]
    rfl
  rcases step_transferMemToDev.mp stepped with ⟨loaded, samples, returned, upsampled, rfl⟩
  have named := tracks.named
  subst named
  rcases (loadCalibValues_eq_ok_iff tracks.holds).mp returned with ⟨_, _, ratio, _, rfl⟩
  rw [RatePlan.Agrees, ← tracks.frame]
  constructor
  · intro oneRate rate member
    rcases List.mem_map.mp member with ⟨sample, among, rfl⟩
    exact (oneRate (List.ne_nil_of_mem among)).2.2 sample among
  · intro agrees filled
    have appending : session.dac.resetBuffer = false := by
      cases flag : session.dac.resetBuffer with
      | true => exact absurd (recorded.pending flag) filled
      | false => rfl
    refine ⟨recorded.stored appending, upsampled, ?_⟩
    intro sample member
    exact agrees sample.rate (List.mem_map_of_mem member)

end FrameRates

section Examples

open scoped Reference

def newSession : Session Rat :=
  ⟨some Adalm2000Document.adalm2000Xml, construct "iio:device6" false false 0 0, []⟩

theorem frame_after_opening_has_one_rate :
    ∃ session ret next, run Session.step newSession
        [.writeAttr (frequencyWrite "7500000" (by decide)), .openDev 2 1 false,
          .writeDev [0, 16] 0 2] = .ok session ∧
      session.dac.transferMemToDev session.doc 2 = .ok (ret, next) ∧
      session.OneRate next := by
  have ran : (do
      let session ← run Session.step newSession
        [.writeAttr (frequencyWrite "7500000" (by decide)), .openDev 2 1 false,
          .writeDev [0, 16] 0 2]
      let (ret, _) ← session.dac.transferMemToDev session.doc 2
      return ret) = .ok 0 := by
    decide +kernel
  simp only [Outcome.bind_eq_ok, Outcome.pure_eq_ok, Except.ok.injEq, Prod.exists] at ran
  rcases ran with ⟨session, ran, ret, next, transferred, _⟩
  refine ⟨session, ret, next, ran, transferred, ?_⟩
  apply (one_rate_iff (by decide +kernel) holdsRates_bundled false false 0 0
    ran transferred).mpr
  simp only [RatePlan.Agrees]
  decide +kernel

/-- The rate is changed between a write and the transfer. -/
theorem frame_has_two_rates :
    ¬ ∀ (session : Session Rat) (ret : Int) (next : M2kDAC Rat),
    run Session.step newSession
        [.openDev 2 1 false, .writeDev [0, 16] 0 2,
          .writeAttr (frequencyWrite "7500000" (by decide))] = .ok session →
      session.dac.transferMemToDev session.doc 2 = .ok (ret, next) →
      session.OneRate next := by
  intro oneRate
  have ran : (do
      let session ← run Session.step newSession
        [.openDev 2 1 false, .writeDev [0, 16] 0 2,
          .writeAttr (frequencyWrite "7500000" (by decide))]
      let (_, next) ← session.dac.transferMemToDev session.doc 2
      return (session.frame.map Sample.rate, next.samplerate)) =
          .ok ([75000000], 7500000) := by
    decide +kernel
  simp only [Outcome.bind_eq_ok, Outcome.pure_eq_ok, Except.ok.injEq, Prod.exists,
    Prod.mk.injEq] at ran
  rcases ran with ⟨session, ran, ret, next, transferred, rates, loaded⟩
  have filled : session.frame ≠ [] := by
    intro none
    rw [none] at rates
    cases rates
  have same := (oneRate session ret next ran transferred filled).2.2
  have member : (75000000 : Rat) ∈ session.frame.map Sample.rate := by
    rw [rates]
    exact List.mem_singleton_self _
  rcases List.mem_map.mp member with ⟨sample, among, rate⟩
  have equal := same sample among
  rw [rate, loaded] at equal
  revert equal
  decide

end Examples

end IioEmu.M2kDAC
