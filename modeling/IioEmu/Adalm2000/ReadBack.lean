import IioEmu.Adalm2000.PowerSupply
import IioEmu.Foundation.Execution

/-! # The read-back over a sequence of calls

The constructor computes no text for a supply, so powering one up before its
first raw write reads back an empty text. After every other call the read-back
agrees with the stored attributes. -/

namespace IioEmu

/-! ## The supplies after a sequence of calls -/

def writesOn (channel : Fin 2) (calls : List SupplyCall) : List SupplyWrite :=
  (calls.filter fun call => call.channel = channel).map SupplyCall.write

theorem foldl_supplyWrites (convert : Fin 2 → Int → Int) (channel : Fin 2)
    (calls : List SupplyCall) (supplies : Fin 2 → Supply) :
    calls.foldl (fun current call => supplyWrites current convert call) supplies channel =
      (writesOn channel calls).foldl (Supply.write (convert channel)) (supplies channel) := by
  induction calls generalizing supplies with
  | nil => rfl
  | cons call calls induction =>
      rw [List.foldl_cons, induction]
      by_cases same : call.channel = channel
      · subst same
        simp [writesOn, supplyWrites]
      · simp [writesOn, supplyWrites, same, Ne.symm same]

def RawFirst (calls : List SupplyCall) : Prop :=
  ∀ earlier call later, calls = earlier ++ call :: later →
    call.write = .powerdown false →
    ∃ prior ∈ earlier, prior.channel = call.channel ∧ ∃ integer,
    prior.write = .raw integer

theorem mem_writesOn {calls : List SupplyCall} {call : SupplyCall}
    (member : call ∈ calls) :
    call.write ∈ writesOn call.channel calls := by
  rw [writesOn, List.mem_map]
  exact ⟨call, by simp [member], rfl⟩

theorem bundledSupply_current (channel : Fin 2) :
    (bundledSupply channel).current = "" := by
  revert channel
  decide

section Runs

variable {δ : Type} [Double δ] [LibXml2]

structure ReadBackAgrees (context : Adalm2000Context δ) (channel : Fin 2) : Prop where
  powerdown : contents context.doc (supplyKey (.powerdown, channel)) =
    .ok (some (some "1")) →
    contents context.doc (supplyKey (.readBack, channel)) = .ok (some (some "0"))
  powered : contents context.doc (supplyKey (.powerdown, channel)) ≠
    .ok (some (some "1")) →
    ∃ raw value result, contents context.doc (supplyKey (.raw, channel)) =
        .ok (some (some raw)) ∧
      leadingInteger raw = some value ∧ context.roundTrip channel value = .ok result ∧
      contents context.doc (supplyKey (.readBack, channel)) =
        .ok (some (some (toString result)))

variable {convert : Fin 2 → Int → Int} {context : Adalm2000Context δ}
  {supplies : Fin 2 → Supply}

theorem readBackAgrees_iff (represents : Represents convert context supplies)
    (channel : Fin 2) :
    ReadBackAgrees context channel ↔ (supplies channel).Agrees (convert channel) := by
  have powerdown := represents.holds.contents (.powerdown, channel)
  have readBack := represents.holds.contents (.readBack, channel)
  have stored := represents.holds.contents (.raw, channel)
  simp only [textsOf, Supply.text] at powerdown readBack stored
  have isDown : contents context.doc (supplyKey (.powerdown, channel)) =
      .ok (some (some "1")) ↔ (supplies channel).down = true := by
    rw [powerdown, ← powerdownText_eq_one_iff]
    simp
  constructor
  · intro agrees
    constructor
    · intro down
      have zero := agrees.powerdown (isDown.mpr down)
      rw [readBack] at zero
      simpa using zero
    · intro powered
      have notDown : contents context.doc (supplyKey (.powerdown, channel)) ≠
          .ok (some (some "1")) := by
        intro down
        rw [isDown.mp down] at powered
        cases powered
      rcases agrees.powered notDown with
        ⟨raw, value, result, rawStored, integral, converted, shown⟩
      rw [stored] at rawStored
      rw [represents.converts] at converted
      rw [readBack] at shown
      cases rawStored
      cases converted
      exact ⟨value, integral, by simpa using shown⟩
  · intro agrees
    constructor
    · intro down
      rw [readBack, agrees.powerdown (isDown.mp down)]
    · intro notDown
      have powered : (supplies channel).down = false := by
        rw [← Bool.not_eq_true, ← isDown]
        exact notDown
      rcases agrees.powered powered with ⟨value, integral, shown⟩
      exact ⟨_, value, _, stored, integral, represents.converts channel value,
        by rw [readBack, shown]⟩

variable [TinyIIOD]

/-- From the constructor on: the calls return, and after each the read-back of
its supply agrees and that of the other supply is what it was. -/
def ReadBackKept (δ : Type) [Double δ] (calls : List SupplyCall) : Prop :=
  ∃ initial final : Adalm2000Context δ, Adalm2000Context.construct = .ok initial ∧
    Execution.run supplyStep initial calls = .ok final ∧
    ∀ state call next, Execution.Taken supplyStep initial calls state call →
      supplyStep state call = .ok next →
      ReadBackAgrees next call.channel ∧
        ∀ other, other ≠ call.channel →
          contents next.doc (supplyKey (.readBack, other)) =
            contents state.doc (supplyKey (.readBack, other))

theorem construct_represents :
    ∃ (initial : Adalm2000Context δ) (convert : Fin 2 → Int → Int),
      Adalm2000Context.construct = .ok initial ∧
        Represents convert initial bundledSupply := by
  rcases Adalm2000Context.construct_returns (δ := δ) with
    ⟨initial, constructed, bundled, calibrated, writable, readable, current⟩
  rcases Adalm2000Context.roundTrip_returns calibrated writable readable with
    ⟨convert, converts⟩
  refine ⟨initial, convert, constructed, converts, ?_, ?_, ?_⟩
  · rw [bundled]
    exact holds_bundled
  · rw [current, bundledSupply_current, bundledSupply_current]
  · intro channel
    rw [bundledSupply_current]
    decide

theorem step_represents (represents : Represents convert context supplies)
    {call : SupplyCall} {next : Adalm2000Context δ}
    (stepped : supplyStep context call = .ok next) :
    call.write.Fits ∧ Represents convert next (supplyWrites supplies convert call) := by
  by_cases fits : call.write.Fits
  · rcases supplyStep_represents represents fits with ⟨reached, returned, holds⟩
    rw [stepped] at returned
    cases returned
    exact ⟨fits, holds⟩
  · rw [supplyStep_throws represents fits] at stepped
    cases stepped

theorem run_represents (represents : Represents convert context supplies)
    {calls : List SupplyCall} {final : Adalm2000Context δ}
    (ran : Execution.run supplyStep context calls = .ok final) :
    (∀ call ∈ calls, call.write.Fits) ∧
      Represents convert final
        (calls.foldl (fun current call => supplyWrites current convert call) supplies) := by
  induction calls generalizing context supplies with
  | nil =>
      cases ran
      exact ⟨by simp, represents⟩
  | cons call calls induction =>
      rw [Execution.run_cons_eq_ok_iff] at ran
      rcases ran with ⟨next, stepped, rest⟩
      rcases step_represents represents stepped with ⟨fits, nextRepresents⟩
      rcases induction nextRepresents rest with ⟨restFits, finalRepresents⟩
      refine ⟨?_, finalRepresents⟩
      intro other member
      cases List.mem_cons.mp member with
      | inl same => rw [same]; exact fits
      | inr later => exact restFits other later

theorem run_returns_of_fits (represents : Represents convert context supplies)
    {calls : List SupplyCall} (fits : ∀ call ∈ calls, call.write.Fits) :
    ∃ final, Execution.run supplyStep context calls = .ok final := by
  apply Execution.run_returns supplyStep
    (fun state => ∃ current, Represents convert state current) ⟨supplies, represents⟩
  rintro state ⟨current, stateRepresents⟩ call member
  rcases supplyStep_represents stateRepresents (fits call member) with
    ⟨next, stepped, holds⟩
  exact ⟨next, stepped, _, holds⟩

theorem ReadBackKept.proper {calls : List SupplyCall} (kept : ReadBackKept δ calls) :
    (∀ call ∈ calls, call.write.Fits) ∧ RawFirst calls := by
  rcases construct_represents (δ := δ) with ⟨initial, convert, constructed, represents⟩
  rcases kept with ⟨start, final, started, ran, agreeing⟩
  cases constructed.symm.trans started
  refine ⟨(run_represents represents ran).1, ?_⟩
  intro earlier call later split powerUp
  by_contra unwritten
  rw [split, Execution.run_append_eq_ok_iff] at ran
  rcases ran with ⟨state, ranEarlier, ranLater⟩
  rw [Execution.run_cons_eq_ok_iff] at ranLater
  rcases ranLater with ⟨next, stepped, _⟩
  have taken : Execution.Taken supplyStep initial calls state call :=
    ⟨earlier, ⟨later, by rw [split, List.append_assoc, List.singleton_append]⟩, ranEarlier⟩
  have stateRepresents := (run_represents represents ranEarlier).2
  have nextRepresents := (step_represents stateRepresents stepped).2
  have agrees := (readBackAgrees_iff nextRepresents call.channel).mp
    (agreeing state call next taken stepped).1
  rw [supplyWrites, Function.update_self, powerUp] at agrees
  apply Supply.not_agrees_powerUp _ ?_ agrees
  rw [foldl_supplyWrites, Supply.current_foldl, bundledSupply_current]
  intro integer member
  apply unwritten
  rw [writesOn, List.mem_map] at member
  rcases member with ⟨prior, filtered, raw⟩
  rw [List.mem_filter, decide_eq_true_iff] at filtered
  exact ⟨prior, filtered.1, filtered.2, integer, raw⟩

theorem agrees_of_rawFirst {initial : Adalm2000Context δ}
    (represents : Represents convert initial bundledSupply) {calls : List SupplyCall}
    (rawFirst : RawFirst calls) {state next : Adalm2000Context δ} {call : SupplyCall}
    (taken : Execution.Taken supplyStep initial calls state call)
    (stepped : supplyStep state call = .ok next) :
    ReadBackAgrees next call.channel ∧
      ∀ other, other ≠ call.channel →
        contents next.doc (supplyKey (.readBack, other)) =
          contents state.doc (supplyKey (.readBack, other)) := by
  rcases taken with ⟨prior, ⟨later, split⟩, ranPrior⟩
  have stateRepresents := (run_represents represents ranPrior).2
  have nextRepresents := (step_represents stateRepresents stepped).2
  constructor
  · rw [readBackAgrees_iff nextRepresents, supplyWrites, Function.update_self]
    apply Supply.agrees_write
    intro powerUp
    rw [List.append_assoc, List.singleton_append] at split
    rcases rawFirst prior call later split.symm powerUp with
      ⟨earlier, member, sameChannel, integer, raw⟩
    rw [foldl_supplyWrites]
    have written := mem_writesOn member
    rw [raw, sameChannel] at written
    exact Supply.cached_foldl _ written _
  · intro other different
    rw [nextRepresents.holds.contents, stateRepresents.holds.contents]
    simp only [textsOf, supplyWrites, Function.update_of_ne different]

/-- The read-back is kept exactly when every value fits an `int` and no supply is
powered up before its first raw write. -/
theorem read_back_kept_iff (calls : List SupplyCall) :
    ReadBackKept δ calls ↔ (∀ call ∈ calls, call.write.Fits) ∧ RawFirst calls := by
  constructor
  · exact ReadBackKept.proper
  · intro proper
    rcases construct_represents (δ := δ) with ⟨initial, convert, constructed, represents⟩
    rcases run_returns_of_fits represents proper.1 with ⟨final, ran⟩
    refine ⟨initial, final, constructed, ran, ?_⟩
    intro state call next taken stepped
    exact agrees_of_rawFirst represents proper.2 taken stepped

end Runs

open scoped Reference in
/-- Powering up `voltage0` first stores an empty text where the value for raw zero
belongs. -/
theorem power_up_first_reads_back_nothing :
    ¬ ReadBackKept Rat [⟨0, .powerdown false, [], 1⟩] := by
  intro kept
  have rawFirst := kept.proper.2
  rcases rawFirst [] _ [] rfl rfl with ⟨prior, member, _⟩
  cases member

end IioEmu
