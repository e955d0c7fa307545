import Mathlib.Logic.Function.Basic
import Mathlib.Data.List.Basic

/-!
# Tracing a queue entry under interleaving

`FuzzingWorker::trace_queue_entry` takes the entry's `stats_rw` lock, returns the trace if there
is one, returns `Ok(None)` if another worker is tracing, and otherwise marks tracing as in
progress and drops the lock.  It then loads the entry's mutations and runs `common_trace`
without the lock, and on success takes the lock again to store the trace.  Either of the two
unlocked operations may fail, and the error is returned at once.

The atomic steps of the model are the two locked sections and the two unlocked operations.  The
methods of the entry's statistics live in a module that is not among the sources; they follow
their names and the specification, and whether `set_trace` also clears the flag is left open
(`clearFlag`): every result here holds either way.
-/

namespace FuzztructionNet.Tracing

variable {W T : Type}

/-- The part of a queue entry's `stats_rw` that tracing reads and writes. -/
structure EntryStats (T : Type) where
  trace : Option T
  tracingInProgress : Bool
  deriving DecidableEq

namespace EntryStats

/-- Modelled from the spec: `mark_tracing_in_progress` sets the flag. -/
def markTracingInProgress (st : EntryStats T) : EntryStats T :=
  { st with tracingInProgress := true }

/-- Modelled from the spec: `set_trace` stores the trace, and clears the flag when
`clearFlag` holds. -/
def setTrace (clearFlag : Bool) (t : T) (st : EntryStats T) : EntryStats T :=
  ⟨some t, if clearFlag then false else st.tracingInProgress⟩

@[simp] theorem markTracingInProgress_trace (st : EntryStats T) :
    st.markTracingInProgress.trace = st.trace := rfl

@[simp] theorem setTrace_trace (cf : Bool) (t : T) (st : EntryStats T) :
    (st.setTrace cf t).trace = some t := rfl

end EntryStats

open EntryStats

inductive TraceResult (T : Type)
  | ok (t : Option T)
  | err
  deriving DecidableEq

/-- `FuzzingWorker::trace_queue_entry` run from start to end without interruption, given the
outcomes of `load_queue_entry_mutations` and of `common_trace`. -/
def traceQueueEntry (clearFlag loadOk : Bool) (traced : Option T) (stats : EntryStats T) :
    TraceResult T × EntryStats T :=
  match stats.trace with
  | some t => (.ok (some t), stats)
  | none =>
    if stats.tracingInProgress then (.ok none, stats)
    else
      let stats := stats.markTracingInProgress
      if loadOk then
        match traced with
        | some t =>
          let stats := stats.setTrace clearFlag t
          (.ok stats.trace, stats)
        | none => (.err, stats)
      else (.err, stats)

/-- Where a worker is inside `trace_queue_entry`: outside a call; with the flag set and the lock
dropped, before `load_queue_entry_mutations`; before `common_trace`; or holding the trace `t`
it waits to store under the lock. -/
inductive Pc (T : Type)
  | idle
  | loading
  | tracing
  | storing (t : T)
  deriving DecidableEq

structure State (W T : Type) where
  stats : EntryStats T
  pc : W → Pc T

/-- One atomic step: a worker's first locked section, the outcome of its
`load_queue_entry_mutations` or of its `common_trace`, or its second locked section. -/
inductive Event (W T : Type)
  | enter (w : W)
  | load (w : W) (ok : Bool)
  | trace (w : W) (r : Option T)
  | store (w : W)

/-- What one step shows: the value a call returns there, and the trace stored there by
`set_trace`. -/
structure Out (T : Type) where
  ret : Option (TraceResult T)
  stored : Option T

variable [DecidableEq W]

def State.setPc (s : State W T) (w : W) (p : Pc T) : State W T :=
  { s with pc := Function.update s.pc w p }

/-- One step.  `none` when the step is not enabled: a worker calls only when it is not inside a
call, and each later step of a call happens in its turn. -/
def step (clearFlag : Bool) (s : State W T) : Event W T → Option (State W T × Out T)
  | .enter w =>
    match s.pc w with
    | .idle =>
      match s.stats.trace with
      | some t => some (s, ⟨some (.ok (some t)), none⟩)
      | none =>
        if s.stats.tracingInProgress then some (s, ⟨some (.ok none), none⟩)
        else some (⟨s.stats.markTracingInProgress, Function.update s.pc w .loading⟩, ⟨none, none⟩)
    | _ => none
  | .load w ok =>
    match s.pc w with
    | .loading =>
      if ok then some (s.setPc w .tracing, ⟨none, none⟩)
      else some (s.setPc w .idle, ⟨some .err, none⟩)
    | _ => none
  | .trace w r =>
    match s.pc w with
    | .tracing =>
      match r with
      | some t => some (s.setPc w (.storing t), ⟨none, none⟩)
      | none => some (s.setPc w .idle, ⟨some .err, none⟩)
    | _ => none
  | .store w =>
    match s.pc w with
    | .storing t =>
      let stats := s.stats.setTrace clearFlag t
      some (⟨stats, Function.update s.pc w .idle⟩, ⟨some (.ok stats.trace), some t⟩)
    | _ => none

def run (clearFlag : Bool) (s : State W T) : List (Event W T) → Option (State W T × List (Out T))
  | [] => some (s, [])
  | e :: es =>
    (step clearFlag s e).bind fun p => (run clearFlag p.1 es).map fun q => (q.1, p.2 :: q.2)

def Init (s : State W T) : Prop := ∀ w, s.pc w = .idle

/-- At most one worker is between `mark_tracing_in_progress` and its return, and while one is,
the entry has no trace and its flag is set. -/
structure Inv (s : State W T) : Prop where
  unique : ∀ w v, s.pc w ≠ .idle → s.pc v ≠ .idle → w = v
  marked : ∀ w, s.pc w ≠ .idle → s.stats.trace = none ∧ s.stats.tracingInProgress = true

structure StepFacts (s s' : State W T) (o : Out T) : Prop where
  unstored : o.stored = none → s'.stats.trace = s.stats.trace
  stored : ∀ t, o.stored = some t → s.stats.trace = none ∧ s'.stats.trace = some t
  returned : ∀ t, o.ret = some (.ok (some t)) → s'.stats.trace = some t
  failed : o.ret = some .err →
    s'.stats = s.stats ∧ s.stats.trace = none ∧ s.stats.tracingInProgress = true

namespace Inv

variable {s : State W T}

omit [DecidableEq W] in
theorem eq_of_busy (hs : Inv s) {w v : W} (hw : s.pc w ≠ .idle) (hv : s.pc v ≠ .idle) :
    v = w := hs.unique v w hv hw

theorem setPc (hs : Inv s) {w : W} (hw : s.pc w ≠ .idle) (p : Pc T) : Inv (s.setPc w p) := by
  have hbusy : ∀ v, (s.setPc w p).pc v ≠ .idle → v = w := fun v hv => by
    by_cases hvw : v = w
    · exact hvw
    · exact hs.eq_of_busy hw (by simpa [State.setPc, hvw] using hv)
  exact ⟨fun v u hv hu => (hbusy v hv).trans (hbusy u hu).symm,
    fun v hv => hbusy v hv ▸ hs.marked w hw⟩

end Inv

section Step

variable {cf : Bool} {s s' : State W T} {e : Event W T} {o : Out T}

/-- **One step keeps the invariant**, and does to the trace what `StepFacts` says. -/
theorem step_inv (hs : Inv s) (h : step cf s e = some (s', o)) : Inv s' ∧ StepFacts s s' o := by
  cases e with
  | enter w =>
    simp only [step] at h
    split at h
    · rename_i hidle
      split at h
      · rename_i t ht
        obtain ⟨rfl, rfl⟩ := Prod.mk.inj (Option.some.inj h)
        exact ⟨hs, ⟨fun _ => rfl, by simp, by simp [ht], by simp⟩⟩
      · rename_i ht
        split at h <;> obtain ⟨rfl, rfl⟩ := Prod.mk.inj (Option.some.inj h)
        · exact ⟨hs, ⟨fun _ => rfl, by simp, by simp, by simp⟩⟩
        · rename_i hflag
          have hfree : ∀ v, s.pc v = .idle := fun v => by
            by_contra hv
            exact hflag (hs.marked v hv).2
          have hbusy : ∀ v, Function.update s.pc w .loading v ≠ .idle → v = w := fun v hv => by
            by_contra hvw
            simp [hvw, hfree v] at hv
          refine ⟨⟨fun v u hv hu => (hbusy v hv).trans (hbusy u hu).symm,
            fun _ _ => ⟨ht, rfl⟩⟩, ⟨fun _ => rfl, by simp, by simp, by simp⟩⟩
    · cases h
  | load w _ | trace w _ =>
    simp only [step] at h
    split at h
    · rename_i hl
      have hw : s.pc w ≠ .idle := by simp [hl]
      split at h <;> obtain ⟨rfl, rfl⟩ := Prod.mk.inj (Option.some.inj h)
      · exact ⟨hs.setPc hw _, ⟨fun _ => rfl, by simp, by simp, by simp⟩⟩
      · exact ⟨hs.setPc hw _, ⟨fun _ => rfl, by simp, by simp, fun _ => ⟨rfl, hs.marked w hw⟩⟩⟩
    · cases h
  | store w =>
    simp only [step] at h
    split at h
    · rename_i t ht
      have hw : s.pc w ≠ .idle := by simp [ht]
      obtain ⟨rfl, rfl⟩ := Prod.mk.inj (Option.some.inj h)
      have hfree : ∀ v, Function.update s.pc w .idle v = .idle := fun v => by
        by_cases hvw : v = w
        · subst hvw; exact Function.update_same _ _ _
        · rw [Function.update_noteq hvw]
          by_contra hv
          exact hvw (hs.eq_of_busy hw hv)
      refine ⟨⟨fun v _ hv _ => absurd (hfree v) hv, fun v hv => absurd (hfree v) hv⟩,
        ⟨by simp, fun t' ht' => ?_, by simp, by simp⟩⟩
      simp only [Option.some.injEq] at ht'
      exact ⟨(hs.marked w hw).1, by simp [ht']⟩
    · cases h

omit [DecidableEq W] in
theorem init_inv (h : Init s) : Inv s :=
  ⟨fun w _ hw _ => absurd (h w) hw, fun w hw => absurd (h w) hw⟩

theorem step_keeps_trace (hs : Inv s) (h : step cf s e = some (s', o)) {t : T}
    (ht : s.stats.trace = some t) : s'.stats.trace = some t := by
  have hf := (step_inv hs h).2
  cases hst : o.stored with
  | none => rw [hf.unstored hst, ht]
  | some t' => simp [(hf.stored t' hst).1] at ht

end Step

def callEvents (w : W) (loadOk : Bool) (traced : Option T) : List (Event W T) :=
  [.enter w, .load w loadOk, .trace w traced, .store w]

omit [DecidableEq W] in
@[simp] theorem update_idle_of_idle {s : State W T} {w : W} [DecidableEq W]
    (hidle : s.pc w = .idle) : Function.update s.pc w .idle = s.pc :=
  hidle ▸ Function.update_eq_self w s.pc

/-- An uninterrupted call of the model is `trace_queue_entry`: a prefix of the call's steps
returns `traceQueueEntry`'s value once, leaves the statistics it leaves, and the worker idle. -/
theorem run_call {cf : Bool} {s : State W T} {w : W} (hidle : s.pc w = .idle) (loadOk : Bool)
    (traced : Option T) :
    ∃ k, (run cf s ((callEvents w loadOk traced).take k)).map
        (fun p => (p.2.filterMap Out.ret, p.1.stats, p.1.pc)) =
      some ([(traceQueueEntry cf loadOk traced s.stats).1],
        (traceQueueEntry cf loadOk traced s.stats).2, s.pc) := by
  rcases ht : s.stats.trace with _ | t
  · cases hf : s.stats.tracingInProgress
    · cases loadOk
      · exact ⟨2, by simp [callEvents, run, step, hidle, ht, hf, State.setPc, traceQueueEntry]⟩
      · cases traced with
        | none =>
          exact ⟨3, by simp [callEvents, run, step, hidle, ht, hf, State.setPc, traceQueueEntry]⟩
        | some t =>
          exact ⟨4, by simp [callEvents, run, step, hidle, ht, hf, State.setPc, traceQueueEntry]⟩
    · exact ⟨1, by simp [callEvents, run, step, hidle, ht, hf, traceQueueEntry]⟩
  · exact ⟨1, by simp [callEvents, run, step, hidle, ht, traceQueueEntry]⟩

/-! ## Whole runs -/

section Run

variable {cf : Bool} {s s' : State W T} {es : List (Event W T)} {outs : List (Out T)}

structure RunFacts (s s' : State W T) (outs : List (Out T)) : Prop where
  keeps : ∀ t, s.stats.trace = some t → s'.stats.trace = some t
  storedOnce : (outs.filterMap Out.stored).length ≤ 1
  storedFresh : outs.filterMap Out.stored ≠ [] → s.stats.trace = none
  returned : ∀ o ∈ outs, ∀ t, o.ret = some (.ok (some t)) → s'.stats.trace = some t

theorem run_inv (hs : Inv s) (h : run cf s es = some (s', outs)) : Inv s' ∧ RunFacts s s' outs := by
  induction es generalizing s outs with
  | nil =>
    obtain ⟨rfl, rfl⟩ := Prod.mk.inj (Option.some.inj h)
    exact ⟨hs, ⟨fun _ => id, by simp, by simp, by simp⟩⟩
  | cons e es ih =>
    simp only [run, Option.bind_eq_some, Option.map_eq_some'] at h
    obtain ⟨⟨s₁, o⟩, hstep, ⟨s₂, outs₂⟩, hrun, hq⟩ := h
    obtain ⟨rfl, rfl⟩ := Prod.mk.inj hq
    obtain ⟨hs₁, hf⟩ := step_inv hs hstep
    obtain ⟨hs₂, hr⟩ := ih hs₁ hrun
    refine ⟨hs₂, ⟨fun t ht => hr.keeps t (step_keeps_trace hs hstep ht), ?_, ?_, ?_⟩⟩
    · cases hst : o.stored with
      | none => simpa [hst] using hr.storedOnce
      | some t =>
        have hnone : outs₂.filterMap Out.stored = [] := by
          by_contra hne
          have hfresh := hr.storedFresh hne
          rw [(hf.stored t hst).2] at hfresh
          cases hfresh
        simp [hst, hnone]
    · cases hst : o.stored with
      | none => simpa [hst, hf.unstored hst] using hr.storedFresh
      | some t => exact fun _ => (hf.stored t hst).1
    · simp only [List.mem_cons, forall_eq_or_imp]
      exact ⟨fun t ht => hr.keeps t (hf.returned t ht), hr.returned⟩

/-- What the tracing protocol guarantees of a run that ends in `s` with the steps showing
`outs`: (a) at most one worker is between `mark_tracing_in_progress` and its return; (b)
`set_trace` was performed at most once; (c) a trace, once there, is never changed or reset by
the next step; (d) every call that returned a trace returned the entry's trace.  And a worker
not inside a call that calls now, uninterrupted, gets `trace_queue_entry`'s value, whatever its
two unlocked operations do. -/
structure SingleWriter (cf : Bool) (s : State W T) (outs : List (Out T)) : Prop where
  exclusive : ∀ w v, s.pc w ≠ .idle → s.pc v ≠ .idle → w = v
  setOnce : (outs.filterMap Out.stored).length ≤ 1
  writeOnce : ∀ e s' o t, step cf s e = some (s', o) → s.stats.trace = some t →
    s'.stats.trace = some t
  sameTrace : ∀ o ∈ outs, ∀ t, o.ret = some (.ok (some t)) → s.stats.trace = some t
  calls : ∀ w, s.pc w = .idle → ∀ loadOk traced,
    ∃ k, (run cf s ((callEvents w loadOk traced).take k)).map
        (fun p => (p.2.filterMap Out.ret, p.1.stats, p.1.pc)) =
      some ([(traceQueueEntry cf loadOk traced s.stats).1],
        (traceQueueEntry cf loadOk traced s.stats).2, s.pc)

theorem run_singleWriter {s₀ : State W T} (h0 : Init s₀) (h : run cf s₀ es = some (s, outs)) :
    SingleWriter cf s outs := by
  obtain ⟨hs, hr⟩ := run_inv (init_inv h0) h
  exact ⟨hs.unique, hr.storedOnce, fun _ _ _ _ hstep ht => step_keeps_trace hs hstep ht,
    hr.returned, fun _ hw => run_call hw⟩

def freshState : State Bool ℕ := ⟨⟨none, false⟩, fun _ => .idle⟩

/-- Worker `true` marks the entry and worker `false` finds it marked; `true` loads, traces and
stores `7`; then `false` calls again and gets the trace. -/
def contendedRun : List (Event Bool ℕ) :=
  [.enter true, .enter false, .load true true, .trace true (some 7), .store true, .enter false]

theorem contendedRun_singleWriter :
    Init freshState ∧
      ∃ s, run false freshState contendedRun = some (s, [⟨none, none⟩, ⟨some (.ok none), none⟩,
          ⟨none, none⟩, ⟨none, none⟩, ⟨some (.ok (some 7)), some 7⟩, ⟨some (.ok (some 7)), none⟩]) ∧
        SingleWriter false s [⟨none, none⟩, ⟨some (.ok none), none⟩, ⟨none, none⟩, ⟨none, none⟩,
          ⟨some (.ok (some 7)), some 7⟩, ⟨some (.ok (some 7)), none⟩] := by
  have h0 : Init freshState := fun _ => rfl
  obtain ⟨s, h⟩ : ∃ s, run false freshState contendedRun = some (s, [⟨none, none⟩,
      ⟨some (.ok none), none⟩, ⟨none, none⟩, ⟨none, none⟩, ⟨some (.ok (some 7)), some 7⟩,
      ⟨some (.ok (some 7)), none⟩]) := ⟨_, rfl⟩
  exact ⟨h0, s, h, run_singleWriter h0 h⟩

end Run

/-! ## Failed calls -/

section Failure

variable {cf : Bool} {s s' : State W T} {e : Event W T} {o : Out T} {es : List (Event W T)}
  {outs : List (Out T)}

/-- Once no worker is inside a call and the entry has the flag set but no trace, nothing
changes any more, and every call returns `Ok(None)`. -/
theorem run_stuck (h0 : Init s) (hst : s.stats = ⟨none, true⟩)
    (h : run cf s es = some (s', outs)) : s' = s ∧ ∀ o ∈ outs, o = ⟨some (.ok none), none⟩ := by
  induction es generalizing outs with
  | nil =>
    obtain ⟨rfl, rfl⟩ := Prod.mk.inj (Option.some.inj h)
    simp
  | cons e es ih =>
    simp only [run, Option.bind_eq_some, Option.map_eq_some'] at h
    obtain ⟨⟨s₁, o⟩, hstep, ⟨s₂, outs₂⟩, hrun, hq⟩ := h
    obtain ⟨rfl, rfl⟩ := Prod.mk.inj hq
    have hstep' : s₁ = s ∧ o = ⟨some (.ok none), none⟩ := by
      cases e <;> simp [step, h0 _, hst] at hstep
      exact ⟨hstep.1.symm, hstep.2.symm⟩
    obtain ⟨rfl, rfl⟩ := hstep'
    obtain ⟨rfl, hrest⟩ := ih hrun
    exact ⟨rfl, by simpa using hrest⟩

theorem step_failed (hs : Inv s) (h : step cf s e = some (s', o)) (herr : o.ret = some .err) :
    Init s' ∧ s'.stats = ⟨none, true⟩ := by
  have hidle : ∀ w, s.pc w ≠ .idle → Init (s.setPc w .idle) := fun w hw v => by
    by_cases hvw : v = w
    · simp [State.setPc, hvw]
    · simpa [State.setPc, hvw] using not_not.1 fun hv => hvw (hs.eq_of_busy hw hv)
  obtain ⟨hst, ht, hf⟩ := (step_inv hs h).2.failed herr
  have hstats : s'.stats = ⟨none, true⟩ := by cases hs' : s.stats; simp_all
  cases e with
  | enter w =>
    simp only [step] at h
    split at h
    · split at h
      · cases h; cases herr
      · split at h <;> (cases h; cases herr)
    · cases h
  | load w ok | trace w ok =>
    simp only [step] at h
    split at h
    · rename_i hl
      have hw : s.pc w ≠ .idle := by simp [hl]
      split at h <;> obtain ⟨rfl, rfl⟩ := Prod.mk.inj (Option.some.inj h)
      · cases herr
      · exact ⟨hidle w hw, hstats⟩
    · cases h
  | store w =>
    simp only [step] at h
    split at h
    · obtain ⟨rfl, rfl⟩ := Prod.mk.inj (Option.some.inj h)
      cases herr
    · cases h

theorem run_failed (hs : Inv s) (h : run cf s es = some (s', outs))
    (herr : ∃ o ∈ outs, o.ret = some .err) : Init s' ∧ s'.stats = ⟨none, true⟩ := by
  induction es generalizing s outs with
  | nil =>
    obtain ⟨-, rfl⟩ := Prod.mk.inj (Option.some.inj h)
    simp at herr
  | cons e es ih =>
    simp only [run, Option.bind_eq_some, Option.map_eq_some'] at h
    obtain ⟨⟨s₁, o⟩, hstep, ⟨s₂, outs₂⟩, hrun, hq⟩ := h
    obtain ⟨rfl, rfl⟩ := Prod.mk.inj hq
    by_cases ho : o.ret = some .err
    · obtain ⟨h₁, hst₁⟩ := step_failed hs hstep ho
      obtain ⟨rfl, -⟩ := run_stuck h₁ hst₁ hrun
      exact ⟨h₁, hst₁⟩
    · exact ih (step_inv hs hstep).1 hrun (by simpa [ho] using herr)

/-- **After a failed call the entry is never traced.**  In a run from a state with no call in
progress, once one call has returned an error, the entry has the flag set and no trace, and no
later interleaving of calls changes anything: every later call returns `Ok(None)`. -/
theorem run_failed_stuck {s₀ : State W T} (h0 : Init s₀) (h : run cf s₀ es = some (s, outs))
    (herr : ∃ o ∈ outs, o.ret = some .err) :
    s.stats = ⟨none, true⟩ ∧ ∀ es' s' outs', run cf s es' = some (s', outs') →
      s' = s ∧ ∀ o ∈ outs', o = ⟨some (.ok none), none⟩ :=
  have hend := run_failed (init_inv h0) h herr
  ⟨hend.2, fun _ _ _ h' => run_stuck hend.1 hend.2 h'⟩

theorem failedLoad_stuck :
    Init freshState ∧ ∃ s, run false freshState [.enter true, .load true false] =
        some (s, [⟨none, none⟩, ⟨some .err, none⟩]) ∧
      s.stats = ⟨none, true⟩ ∧ ∀ es' s' outs', run false s es' = some (s', outs') →
        s' = s ∧ ∀ o ∈ outs', o = ⟨some (.ok none), none⟩ := by
  have h0 : Init freshState := fun _ => rfl
  obtain ⟨s, h⟩ : ∃ s, run false freshState [.enter true, .load true false] =
      some (s, [⟨none, none⟩, ⟨some .err, none⟩]) := ⟨_, rfl⟩
  exact ⟨h0, s, h, run_failed_stuck h0 h ⟨_, List.mem_cons_of_mem _ (List.mem_singleton_self _), rfl⟩⟩

/-- A fresh entry, a call whose `load_queue_entry_mutations` fails, and a later call: the first
returns an error and leaves the flag set, and the second returns `Ok(None)`. -/
theorem freshState_failed_load :
    (run false freshState [.enter true, .load true false, .enter false]).map
        (fun p => (p.1.stats, p.2.map Out.ret)) =
      some (⟨none, true⟩, [none, some .err, some (.ok none)]) := by
  decide

end Failure

end FuzztructionNet.Tracing
