/-
Runs of a labelled transition system, and the induction rules that carry a
property of one step to every state a run can reach.  A step may be subject to
a condition on the state it starts from and on its label; the condition is a
parameter of the run, so that one system serves theorems about all runs and
theorems about the runs that respect some discipline.
-/
import Mathlib.Init

namespace TransitionSystem

universe u v

variable {State : Type u} {Label : Type v}

/-- Where runs start, and what a step with a given label does; `none` when the
label is not enabled. -/
structure System (State : Type u) (Label : Type v) where
  start : State → Prop
  next : State → Label → Option State

namespace System

variable (sys : System State Label)

/-- The states that a run all of whose steps are allowed leads to from `source`. -/
inductive RunUnder (allowed : State → Label → Prop) (source : State) : State → Prop
  | refl : RunUnder allowed source source
  | step {before after : State} {label : Label} :
      RunUnder allowed source before → allowed before label →
      sys.next before label = some after → RunUnder allowed source after

/-- The states reachable from a starting state by allowed steps. -/
def ReachableUnder (allowed : State → Label → Prop) (state : State) : Prop :=
  ∃ source, sys.start source ∧ sys.RunUnder allowed source state

/-- Every step is allowed. -/
def AnyStep (_ : State) (_ : Label) : Prop := True

/-- The states of all runs. -/
def Reachable (state : State) : Prop :=
  sys.ReachableUnder AnyStep state

variable {sys} {allowed allowed' : State → Label → Prop}

theorem RunUnder.single {before after : State} {label : Label}
    (hallowed : allowed before label) (hnext : sys.next before label = some after) :
    sys.RunUnder allowed before after :=
  .step .refl hallowed hnext

theorem RunUnder.trans {source middle target : State}
    (hfirst : sys.RunUnder allowed source middle)
    (hsecond : sys.RunUnder allowed middle target) :
    sys.RunUnder allowed source target := by
  induction hsecond with
  | refl => exact hfirst
  | step _ hallowed hnext ih => exact .step ih hallowed hnext

theorem RunUnder.mono (hsub : ∀ state label, allowed state label → allowed' state label)
    {source target : State} (hrun : sys.RunUnder allowed source target) :
    sys.RunUnder allowed' source target := by
  induction hrun with
  | refl => exact .refl
  | step _ hallowed hnext ih => exact .step ih (hsub _ _ hallowed) hnext

/-- What every allowed step preserves, a run of allowed steps preserves. -/
theorem RunUnder.preserves (inv : State → Prop)
    (hstep : ∀ before label after, inv before → allowed before label →
      sys.next before label = some after → inv after)
    {source target : State} (hrun : sys.RunUnder allowed source target)
    (hsource : inv source) : inv target := by
  induction hrun with
  | refl => exact hsource
  | step _ hallowed hnext ih => exact hstep _ _ _ ih hallowed hnext

/-- What holds where runs start and is preserved by every allowed step holds in
every state reachable by allowed steps. -/
theorem ReachableUnder.invariant (inv : State → Prop)
    (hstart : ∀ state, sys.start state → inv state)
    (hstep : ∀ before label after, inv before → allowed before label →
      sys.next before label = some after → inv after)
    {state : State} (hreach : sys.ReachableUnder allowed state) : inv state := by
  obtain ⟨source, hsource, hrun⟩ := hreach
  exact hrun.preserves inv hstep (hstart source hsource)

theorem ReachableUnder.step {before after : State} {label : Label}
    (hreach : sys.ReachableUnder allowed before) (hallowed : allowed before label)
    (hnext : sys.next before label = some after) : sys.ReachableUnder allowed after := by
  obtain ⟨source, hsource, hrun⟩ := hreach
  exact ⟨source, hsource, .step hrun hallowed hnext⟩

theorem ReachableUnder.reachable {state : State}
    (hreach : sys.ReachableUnder allowed state) : sys.Reachable state := by
  obtain ⟨source, hsource, hrun⟩ := hreach
  exact ⟨source, hsource, hrun.mono fun _ _ _ => trivial⟩

/-! ### Histories -/

/-- The histories of the runs whose steps are allowed: the states passed through,
the present one first. -/
inductive HistoryUnder (sys : System State Label) (allowed : State → Label → Prop) :
    List State → Prop
  | start {state : State} : sys.start state → HistoryUnder sys allowed [state]
  | step {before after : State} {label : Label} {past : List State} :
      HistoryUnder sys allowed (before :: past) → allowed before label →
      sys.next before label = some after → HistoryUnder sys allowed (after :: before :: past)

/-- The histories of all runs. -/
abbrev History (sys : System State Label) (history : List State) : Prop :=
  sys.HistoryUnder AnyStep history

/-- A property of the present state and the past that holds where runs start and is
preserved by every allowed step. -/
theorem HistoryUnder.invariant (inv : State → List State → Prop)
    (hstart : ∀ state, sys.start state → inv state [])
    (hstep : ∀ before past label after, inv before past → allowed before label →
      sys.next before label = some after → inv after (before :: past))
    {state : State} {past : List State}
    (hhistory : sys.HistoryUnder allowed (state :: past)) : inv state past := by
  generalize hwhole : state :: past = history at hhistory
  induction hhistory generalizing state past with
  | start hsource =>
      obtain ⟨rfl, rfl⟩ := List.cons.inj hwhole
      exact hstart _ hsource
  | step _ hallowed hnext ih =>
      obtain ⟨rfl, rfl⟩ := List.cons.inj hwhole
      exact hstep _ _ _ _ (ih rfl) hallowed hnext

/-- The history of a script: each step is chosen in the state it starts from, and must
be permitted there. -/
def trail (sys : System State Label) (permits : State → Label → Bool) (state : State)
    (past : List State) : List (State → Label) → Option (State × List State)
  | [] => some (state, past)
  | choose :: rest =>
      if permits state (choose state) then
        (sys.next state (choose state)).bind fun after =>
          trail sys permits after (state :: past) rest
      else none

theorem history_of_trail {permits : State → Label → Bool} {script : List (State → Label)} :
    ∀ {state final : State} {past history : List State},
      (∀ choose ∈ script, ∀ before, permits before (choose before) = true →
        allowed before (choose before)) →
      sys.HistoryUnder allowed (state :: past) →
      sys.trail permits state past script = some (final, history) →
      sys.HistoryUnder allowed (final :: history) ∧ sys.RunUnder allowed state final := by
  induction script with
  | nil =>
      intro state final past history _ hpast htrail
      obtain ⟨rfl, rfl⟩ := Prod.mk.inj (Option.some.inj htrail)
      exact ⟨hpast, .refl⟩
  | cons choose rest ih =>
      intro state final past history hallowed hpast htrail
      rw [trail] at htrail
      split at htrail
      · rename_i hpermits
        obtain ⟨after, hnext, hrest⟩ := Option.bind_eq_some_iff.mp htrail
        have hhead := hallowed choose (List.mem_cons_self ..) state hpermits
        obtain ⟨hhistory, hrun⟩ := ih
          (fun choose hmem => hallowed choose (List.mem_cons_of_mem _ hmem))
          (.step hpast hhead hnext) hrest
        exact ⟨hhistory, (RunUnder.single hhead hnext).trans hrun⟩
      · cases htrail

theorem HistoryUnder.reachableUnder {state : State} {past : List State}
    (hhistory : sys.HistoryUnder allowed (state :: past)) : sys.ReachableUnder allowed state := by
  refine hhistory.invariant (fun state _ => sys.ReachableUnder allowed state) ?_ ?_
  · exact fun state hstart => ⟨state, hstart, .refl⟩
  · exact fun _ _ _ _ hreach hallowed hnext => hreach.step hallowed hnext

end System

end TransitionSystem
