import IioEmu.Foundation.Execution
import Mathlib.Data.List.Nodup
import Mathlib.Logic.Relation

/-! # Domains that do not see each other

A step returns an output, and every action belongs to a domain. When a step shows a domain
nothing it did not see before, except to its own domain, what a domain is told in a run is
what it is told when it runs alone, and the order in which the domains take their turns does
not matter. -/

namespace IioEmu.Execution

section Records

variable {State Action Output Error : Type}
  (step : State → Action → Except Error (Output × State))

def record (initial : State) : List Action → Except Error (List (Action × Output) × State)
  | [] => .ok ([], initial)
  | action :: actions =>
      step initial action >>= fun taken =>
        record taken.2 actions >>= fun rest => .ok ((action, taken.1) :: rest.1, rest.2)

variable {initial final : State} {action : Action} {actions : List Action}
  {outputs : List (Action × Output)}

@[simp] theorem record_nil : record step initial [] = .ok ([], initial) := rfl

theorem record_cons_eq_ok_iff :
    record step initial (action :: actions) = .ok (outputs, final) ↔
      ∃ output next later, step initial action = .ok (output, next) ∧
        record step next actions = .ok (later, final) ∧ outputs = (action,
        output) :: later := by
  rw [record]
  constructor
  · intro ran
    cases stepped : step initial action with
    | error fault => simp [stepped, bind, Except.bind] at ran
    | ok taken =>
        cases rest : record step taken.2 actions with
        | error fault => simp [stepped, rest, bind, Except.bind] at ran
        | ok later =>
            simp only [stepped, rest, bind, Except.bind, Except.ok.injEq,
              Prod.mk.injEq] at ran
            rcases ran with ⟨rfl, rfl⟩
            exact ⟨taken.1, taken.2, later.1, rfl, rest, rfl⟩
  · rintro ⟨output, next, later, stepped, rest, rfl⟩
    simp [stepped, rest, bind, Except.bind]

theorem record_append_eq_ok_iff {first second : List Action} :
    record step initial (first ++ second) = .ok (outputs, final) ↔
      ∃ middle earlier later, record step initial first = .ok (earlier, middle) ∧
        record step middle second = .ok (later, final) ∧ outputs = earlier ++ later := by
  induction first generalizing initial outputs with
  | nil => simp
  | cons action first induction =>
      rw [List.cons_append, record_cons_eq_ok_iff]
      constructor
      · rintro ⟨output, next, rest, taken, ran, rfl⟩
        rcases induction.mp ran with ⟨middle, earlier, later, ranFirst, ranSecond, rfl⟩
        refine ⟨middle, (action, output) :: earlier, later, ?_, ranSecond, rfl⟩
        rw [record_cons_eq_ok_iff]
        exact ⟨output, next, earlier, taken, ranFirst, rfl⟩
      · rintro ⟨middle, earlier, later, ranFirst, ranSecond, rfl⟩
        rw [record_cons_eq_ok_iff] at ranFirst
        rcases ranFirst with ⟨output, next, rest, taken, ranRest, rfl⟩
        exact ⟨output, next, rest ++ later, taken,
          induction.mpr ⟨middle, rest, later, ranRest, ranSecond, rfl⟩, rfl⟩

theorem actions_of_record (ran : record step initial actions = .ok (outputs, final)) :
    outputs.map Prod.fst = actions := by
  induction actions generalizing initial outputs with
  | nil =>
      cases ran
      rfl
  | cons action actions induction =>
      rw [record_cons_eq_ok_iff] at ran
      rcases ran with ⟨output, next, later, taken, rest, rfl⟩
      rw [List.map_cons, induction rest]

def advance (state : State) (action : Action) : Except Error State :=
  Prod.snd <$> step state action

theorem advance_eq_ok_iff {next : State} :
    advance step initial action = .ok next ↔ ∃ output,
    step initial action = .ok (output, next) := by
  rw [advance]
  cases step initial action with
  | error fault => simp [Functor.map, Except.map]
  | ok taken => simp [Functor.map, Except.map, Prod.ext_iff]

theorem run_advance_iff :
    run (advance step) initial actions = .ok final ↔
      ∃ outputs, record step initial actions = .ok (outputs, final) := by
  induction actions generalizing initial with
  | nil => simp
  | cons action actions induction =>
      rw [run_cons_eq_ok_iff]
      constructor
      · rintro ⟨next, advanced, ran⟩
        rcases (advance_eq_ok_iff step).mp advanced with ⟨output, taken⟩
        rcases induction.mp ran with ⟨later, recorded⟩
        exact ⟨_, (record_cons_eq_ok_iff step).mpr ⟨output, next, later,
          taken, recorded, rfl⟩⟩
      · rintro ⟨outputs, recorded⟩
        rw [record_cons_eq_ok_iff] at recorded
        rcases recorded with ⟨output, next, later, taken, rest, rfl⟩
        exact ⟨next, (advance_eq_ok_iff step).mpr ⟨output, taken⟩,
          induction.mpr ⟨later, rest⟩⟩

theorem invariant_of_record (Invariant : State → Prop)
    (preserved : ∀ state action output next, action ∈ actions → Invariant state →
      step state action = .ok (output, next) → Invariant next)
    (start : Invariant initial)
    (ran : record step initial actions = .ok (outputs, final)) :
    Invariant final := by
  induction actions generalizing initial outputs with
  | nil =>
      cases ran
      exact start
  | cons action actions induction =>
      rw [record_cons_eq_ok_iff] at ran
      rcases ran with ⟨output, next, later, taken, rest, rfl⟩
      apply induction ?_ (preserved initial action output next (by simp) start taken) rest
      intro state other result after member
      exact preserved state other result after (List.mem_cons_of_mem _ member)

end Records

section Domains

variable {State Action Output Error Domain : Type}

/-- The conditions on single steps. An action is allowed where it keeps to its domain, and
the invariant holds of the states the conditions are about. -/
structure Unwinds (step : State → Action → Except Error (Output × State))
    (domain : Action → Domain) (Allowed : Action → Prop) (Invariant : State → Prop)
    (agrees : Domain → State → State → Prop) : Prop where
  equivalence : ∀ d, Equivalence (agrees d)
  preserved : ∀ {state action output next}, Allowed action → Invariant state →
    step state action = .ok (output, next) → Invariant next
  respected : ∀ {state action output next d}, Allowed action → Invariant state →
    step state action = .ok (output, next) → d ≠ domain action → agrees d state next
  consistent : ∀ {state other action output next}, Allowed action → Invariant state →
    Invariant other → agrees (domain action) state other →
    step state action = .ok (output, next) →
      ∃ after, step other action = .ok (output, after) ∧ agrees (domain action) next after

variable [DecidableEq Domain] (domain : Action → Domain)

def purge (d : Domain) (actions : List Action) : List Action :=
  actions.filter fun action => domain action = d

def told (d : Domain) (outputs : List (Action × Output)) : List (Action × Output) :=
  outputs.filter fun output => domain output.1 = d

variable {domain} {d : Domain} {action : Action} {actions first second : List Action}

theorem purge_cons_of_eq (same : domain action = d) :
    purge domain d (action :: actions) = action :: purge domain d actions := by
  simp [purge, same]

theorem purge_cons_of_ne (different : domain action ≠ d) :
    purge domain d (action :: actions) = purge domain d actions := by
  simp [purge, different]

theorem purge_append :
    purge domain d (first ++ second) = purge domain d first ++ purge domain d second := by
  simp [purge]

theorem mem_of_mem_purge (member : action ∈ purge domain d actions) : action ∈ actions :=
  (List.mem_filter.mp member).1

theorem purge_purge_self :
    purge domain d (purge domain d actions) = purge domain d actions := by
  simp [purge, List.filter_filter]

variable {step : State → Action → Except Error (Output × State)} {Allowed : Action → Prop}
  {Invariant : State → Prop} {agrees : Domain → State → State → Prop}

namespace Unwinds

/-- A domain that runs alone is told the same, and sees the same afterwards. -/
theorem record_purge (unwinds : Unwinds step domain Allowed Invariant agrees)
    (allowed : ∀ action ∈ actions, Allowed action) {initial other final : State}
    {outputs : List (Action × Output)} (start : Invariant initial)
    (otherStart : Invariant other) (seen : agrees d initial other)
    (ran : record step initial actions = .ok (outputs, final)) :
    ∃ after, record step other (purge domain d actions) =
    .ok (told domain d outputs, after) ∧
      agrees d final after := by
  induction actions generalizing initial other outputs with
  | nil =>
      cases ran
      exact ⟨other, rfl, seen⟩
  | cons action actions induction =>
      rw [record_cons_eq_ok_iff] at ran
      rcases ran with ⟨output, next, later, taken, rest, rfl⟩
      have permitted : Allowed action := allowed action (by simp)
      have later_allowed : ∀ action ∈ actions, Allowed action := fun action member =>
        allowed action (List.mem_cons_of_mem _ member)
      have holds := unwinds.preserved permitted start taken
      by_cases same : domain action = d
      · subst same
        rcases unwinds.consistent permitted start otherStart seen taken with
          ⟨middle, otherTaken, seenNext⟩
        have otherHolds := unwinds.preserved permitted otherStart otherTaken
        rcases induction later_allowed holds otherHolds seenNext rest with
          ⟨after, ran, seenFinal⟩
        refine ⟨after, ?_, seenFinal⟩
        rw [purge_cons_of_eq rfl, record_cons_eq_ok_iff]
        exact ⟨output, middle, _, otherTaken, ran, by simp [told]⟩
      · have unseen := unwinds.respected permitted start taken (Ne.symm same)
        have seenNext :=
          (unwinds.equivalence d).trans ((unwinds.equivalence d).symm unseen) seen
        rcases induction later_allowed holds otherStart seenNext rest with
          ⟨after, ran, seenFinal⟩
        refine ⟨after, ?_, seenFinal⟩
        rw [purge_cons_of_ne same, ran]
        simp [told, same]

theorem returns_of_purged (unwinds : Unwinds step domain Allowed Invariant agrees)
    (allowed : ∀ action ∈ actions, Allowed action) {initial : State}
    (start : Invariant initial) (alone : ∀ d, ∃ other result,
      Invariant other ∧ agrees d other initial ∧
      record step other (purge domain d actions) = .ok result) :
    ∃ result, record step initial actions = .ok result := by
  induction actions generalizing initial with
  | nil => exact ⟨_, rfl⟩
  | cons action actions induction =>
      have permitted : Allowed action := allowed action (by simp)
      rcases alone (domain action) with ⟨own, ⟨outputs, ended⟩, ownHolds, ownSeen, ran⟩
      rw [purge_cons_of_eq rfl, record_cons_eq_ok_iff] at ran
      rcases ran with ⟨output, ownNext, later, ownTaken, ownRest, _⟩
      rcases unwinds.consistent permitted ownHolds start ownSeen ownTaken with
        ⟨next, taken, nextSeen⟩
      have rest : ∃ result, record step next actions = .ok result := by
        apply induction (fun action member => allowed action (List.mem_cons_of_mem _ member))
          (unwinds.preserved permitted start taken)
        intro d
        by_cases same : domain action = d
        · subst same
          exact ⟨ownNext, _,
            unwinds.preserved permitted ownHolds ownTaken, nextSeen, ownRest⟩
        · rcases alone d with ⟨other, result, holds, seen, ranOther⟩
          rw [purge_cons_of_ne same] at ranOther
          have unseen := unwinds.respected permitted start taken (Ne.symm same)
          exact ⟨other, result, holds,
            (unwinds.equivalence d).trans seen unseen, ranOther⟩
      rcases rest with ⟨⟨outputs, final⟩, ran⟩
      refine ⟨((action, output) :: outputs, final), ?_⟩
      rw [record_cons_eq_ok_iff]
      exact ⟨output, next, outputs, taken, ran, rfl⟩

/-- A run returns exactly when every domain's own run does. -/
theorem returns_iff (unwinds : Unwinds step domain Allowed Invariant agrees)
    (allowed : ∀ action ∈ actions, Allowed action) {initial : State}
    (start : Invariant initial) :
    (∃ result, record step initial actions = .ok result) ↔
      ∀ d, ∃ result, record step initial (purge domain d actions) = .ok result := by
  constructor
  · rintro ⟨⟨outputs, final⟩, ran⟩ d
    rcases unwinds.record_purge allowed start start
        ((unwinds.equivalence d).refl initial) ran with
      ⟨after, alone, _⟩
    exact ⟨_, alone⟩
  · intro alone
    apply unwinds.returns_of_purged allowed start
    intro d
    rcases alone d with ⟨result, ran⟩
    exact ⟨initial, result, start, (unwinds.equivalence d).refl initial, ran⟩

/-- Two orders in which every domain takes the same steps tell every domain the same, and
leave states no domain can tell apart. -/
theorem interleavings_agree (unwinds : Unwinds step domain Allowed Invariant agrees)
    (firstAllowed : ∀ action ∈ first, Allowed action)
    (secondAllowed : ∀ action ∈ second, Allowed action)
    (same : ∀ d, purge domain d first = purge domain d second) {initial final : State}
    {outputs : List (Action × Output)} (start : Invariant initial)
    (ran : record step initial first = .ok (outputs, final)) :
    ∃ otherOutputs otherFinal, record step initial second =
    .ok (otherOutputs, otherFinal) ∧
      ∀ d, told domain d otherOutputs = told domain d outputs ∧
      agrees d final otherFinal := by
  have returns : ∃ result, record step initial second = .ok result := by
    rw [unwinds.returns_iff secondAllowed start]
    intro d
    rw [← same d]
    exact (unwinds.returns_iff firstAllowed start).mp ⟨_, ran⟩ d
  rcases returns with ⟨⟨otherOutputs, otherFinal⟩, otherRan⟩
  refine ⟨otherOutputs, otherFinal, otherRan, ?_⟩
  intro d
  have seen := (unwinds.equivalence d).refl initial
  rcases unwinds.record_purge firstAllowed start start seen ran with ⟨after, alone, ends⟩
  rcases unwinds.record_purge secondAllowed start start seen otherRan with
    ⟨otherAfter, otherAlone, otherEnds⟩
  rw [← same d, alone] at otherAlone
  injection otherAlone with otherAlone
  injection otherAlone with sameTold sameAfter
  subst sameAfter
  exact ⟨sameTold.symm,
    (unwinds.equivalence d).trans ends ((unwinds.equivalence d).symm otherEnds)⟩

end Unwinds

def serial (domain : Action → Domain) (domains : List Domain) (actions : List Action) :
    List Action :=
  domains.flatMap fun d => purge domain d actions

theorem mem_of_mem_serial {domains : List Domain}
    (member : action ∈ serial domain domains actions) : action ∈ actions := by
  rcases List.mem_flatMap.mp member with ⟨d, _, inside⟩
  exact mem_of_mem_purge inside

theorem purge_serial {domains : List Domain} (nodup : domains.Nodup)
    (covers : ∀ action ∈ actions, domain action ∈ domains) :
    purge domain d (serial domain domains actions) = purge domain d actions := by
  have others : ∀ rest : List Domain, d ∉ rest →
      purge domain d (serial domain rest actions) = [] := by
    intro rest absent
    rw [purge, List.filter_eq_nil_iff]
    intro action member
    rcases List.mem_flatMap.mp member with ⟨other, inRest, inside⟩
    have own : domain action = other := by simpa using (List.mem_filter.mp inside).2
    have different : other ≠ d := fun equal => absent (equal ▸ inRest)
    simpa [own] using different
  by_cases listed : d ∈ domains
  · rcases List.append_of_mem listed with ⟨before, after, rfl⟩
    rw [List.nodup_append] at nodup
    rcases nodup with ⟨_, afterNodup, apart⟩
    have notBefore : d ∉ before := fun member => apart d member d (by simp) rfl
    have notAfter : d ∉ after := (List.nodup_cons.mp afterNodup).1
    have split : serial domain (before ++ d :: after) actions =
        serial domain before actions ++ (purge domain d actions ++
          serial domain after actions) := by
      simp [serial]
    rw [split, purge_append, purge_append, others before notBefore, others after notAfter,
      purge_purge_self, List.nil_append, List.append_nil]
  · rw [others domains listed, eq_comm, purge, List.filter_eq_nil_iff]
    intro action member
    have inside := covers action member
    have different : domain action ≠ d := fun equal => listed (equal ▸ inside)
    simpa using different

end Domains

end IioEmu.Execution
