import FuzztructionNet.SinkBitmap

/-!
# Two-level virgin maps under interleaving

`FuzzingWorker::check_virgin_maps` tests a coverage map first against the worker's private
virgin map and takes the mutex of the campaign's global virgin map only when that local test
finds something; under the mutex it tests the global map and copies it back into the local
one.  The local test reads no shared state, so a call is two atomic steps: the local test, and
the section under the mutex.  Workers interleave these steps freely.

The invariant is that the global map is covered by the local map of every worker that is not
inside a call.  From it, every call behaves as a single `has_new_bit` on the global map at one
point of the run (the local test when it answers `noNew`, the locked section otherwise), so a
whole run of the system is a run of the plain global check (`run_refines_globalRun`).
-/

namespace FuzztructionNet.VirginMaps

open Bitmap

variable {W : Type} [DecidableEq W] {n : ℕ}

/-- `FuzzingWorker::check_virgin_maps`, run from start to end without interruption: the answer,
the new local map and the new global map. -/
def checkVirginMaps (cov localVirgin globalVirgin : Bitmap n) :
    BitmapStatus × Bitmap n × Bitmap n :=
  let local' := hasNewBit cov localVirgin
  if local'.1 = .newEdge ∨ local'.1 = .newHit then
    let global' := hasNewBit cov globalVirgin
    -- `local_virgin.copy_from(&global_virgin_map)`
    (global'.1, global'.2, global'.2)
  else (local'.1, local'.2, globalVirgin)

theorem status_eq_noNew {r : BitmapStatus} (h : ¬(r = .newEdge ∨ r = .newHit)) : r = .noNew := by
  cases r <;> simp_all

/-- With a local map that covers the global one, `check_virgin_maps` answers, and leaves the
global map, as `has_new_bit` on the global map alone. -/
theorem checkVirginMaps_of_covers {cov l g : Bitmap n} (hlg : Covers l g) :
    ((checkVirginMaps cov l g).1, (checkVirginMaps cov l g).2.2) = hasNewBit cov g := by
  by_cases hnew : (hasNewBit cov l).1 = .newEdge ∨ (hasNewBit cov l).1 = .newHit
  · simp only [checkVirginMaps, if_pos hnew]
  · have hno := status_eq_noNew hnew
    simp only [checkVirginMaps, if_neg hnew]
    rw [hasNewBit_of_covers hlg hno, hno]

/-- A worker as far as the virgin maps go: its private virgin map, and the coverage map of a call
that found something locally and waits for the mutex. -/
structure Worker (n : ℕ) where
  localVirgin : Bitmap n
  pending : Option (Bitmap n)

structure State (W : Type) (n : ℕ) where
  globalVirgin : Bitmap n
  workers : W → Worker n

/-- One atomic step: a worker calls `check_virgin_maps` and runs the local test, runs the section
under the global mutex, or (re)starts with a local virgin map. -/
inductive Event (W : Type) (n : ℕ)
  | check (w : W) (cov : Bitmap n)
  | lock (w : W)
  | start (w : W) (l : Bitmap n)

abbrev Return (n : ℕ) := Bitmap n × BitmapStatus

namespace State

def setWorker (s : State W n) (w : W) (x : Worker n) : State W n :=
  { s with workers := Function.update s.workers w x }

@[simp] theorem setWorker_globalVirgin (s : State W n) (w : W) (x : Worker n) :
    (s.setWorker w x).globalVirgin = s.globalVirgin := rfl

@[simp] theorem setWorker_self (s : State W n) (w : W) (x : Worker n) :
    (s.setWorker w x).workers w = x := Function.update_same _ _ _

@[simp] theorem setWorker_ne (s : State W n) {w v : W} (x : Worker n) (h : v ≠ w) :
    (s.setWorker w x).workers v = s.workers v := Function.update_noteq h _ _

end State

/-- One step, and the call that returns at it, if any.  `none` when the step is not enabled: a
worker inside a call does not call again, and only a worker inside a call takes the mutex.  A
worker may start with any local map that covers the global map at that moment. -/
def step (s : State W n) : Event W n → Option (State W n × Option (Return n))
  | .check w cov =>
    match (s.workers w).pending with
    | some _ => none
    | none =>
      let local' := hasNewBit cov (s.workers w).localVirgin
      if local'.1 = .newEdge ∨ local'.1 = .newHit then
        some (s.setWorker w ⟨local'.2, some cov⟩, none)
      else some (s.setWorker w ⟨local'.2, none⟩, some (cov, local'.1))
  | .lock w =>
    match (s.workers w).pending with
    | none => none
    | some cov =>
      let global' := hasNewBit cov s.globalVirgin
      some (⟨global'.2, Function.update s.workers w ⟨global'.2, none⟩⟩, some (cov, global'.1))
  | .start w l =>
    if Covers l s.globalVirgin then some (s.setWorker w ⟨l, none⟩, none) else none

def run (s : State W n) : List (Event W n) → Option (State W n × List (Return n))
  | [] => some (s, [])
  | e :: es =>
    (step s e).bind fun p => (run p.1 es).map fun q => (q.1, p.2.toList ++ q.2)

/-- The start of a campaign: the global map all `0xff`, as `FuzzingCampaign::new` makes it, no
call in progress, and every local map covering the global one. -/
def Init (s : State W n) : Prop :=
  s.globalVirgin = newInMem n 0xff ∧
    ∀ w, (s.workers w).pending = none ∧ Covers (s.workers w).localVirgin s.globalVirgin

inductive Reachable : State W n → Prop
  | init {s : State W n} : Init s → Reachable s
  | next {s s' : State W n} {e : Event W n} {o : Option (Return n)} :
      Reachable s → step s e = some (s', o) → Reachable s'

/-- The global map is covered by the local map of every worker not inside a call. -/
def Inv (s : State W n) : Prop :=
  ∀ w, (s.workers w).pending = none → Covers (s.workers w).localVirgin s.globalVirgin

/-- What a step does to the global map `g`, giving `g'`: nothing when no call returns there,
and exactly what `has_new_bit` of the returning call does otherwise. -/
def Effect (g g' : Bitmap n) : Option (Return n) → Prop
  | none => g' = g
  | some (cov, r) => hasNewBit cov g = (r, g')

def globalRun (g : Bitmap n) : List (Bitmap n) → List BitmapStatus × Bitmap n
  | [] => ([], g)
  | cov :: covs =>
    let rest := globalRun (hasNewBit cov g).2 covs
    ((hasNewBit cov g).1 :: rest.1, rest.2)

def globalReports (g : Bitmap n) : List (Bitmap n) → List (Bitmap n)
  | [] => []
  | cov :: covs => cleared cov g :: globalReports (clear cov g) covs

/-! ## One step -/

section Step

variable {s s' : State W n} {e : Event W n} {o : Option (Return n)}

theorem Inv.setWorker (hs : Inv s) {w : W} {x : Worker n}
    (hx : x.pending = none → Covers x.localVirgin s.globalVirgin) : Inv (s.setWorker w x) :=
  fun v => by
    by_cases hv : v = w
    · subst hv; simpa using hx
    · simpa [hv] using hs v

omit [DecidableEq W] in
theorem init_inv (h : Init s) : Inv s := fun w _ => (h.2 w).2

/-- **One step keeps the invariant and acts on the global map as `has_new_bit` of the call
returning there.** -/
theorem step_inv (hs : Inv s) (h : step s e = some (s', o)) :
    Inv s' ∧ Effect s.globalVirgin s'.globalVirgin o := by
  cases e with
  | check w cov =>
    simp only [step] at h
    split at h
    · cases h
    · rename_i hidle
      have hl := hs w hidle
      split at h <;> (obtain ⟨rfl, rfl⟩ := Option.some.inj h |> Prod.mk.inj)
      · exact ⟨hs.setWorker (by simp), rfl⟩
      · rename_i hnew
        have hno := status_eq_noNew hnew
        have hclear := hasNewBit_fst_eq_noNew.mp hno
        refine ⟨hs.setWorker fun _ => ?_, ?_⟩
        · simpa [hclear] using hl
        · simpa [Effect, hno] using hasNewBit_of_covers hl hno
  | lock w =>
    simp only [step] at h
    split at h
    · cases h
    · obtain ⟨rfl, rfl⟩ := Option.some.inj h |> Prod.mk.inj
      refine ⟨fun v hv => ?_, rfl⟩
      by_cases hvw : v = w
      · subst hvw; simpa using Covers.refl _
      · simp only [Function.update_noteq hvw] at hv ⊢
        exact (hs v hv).trans (covers_clear _ _)
  | start w l =>
    simp only [step] at h
    split at h
    · obtain ⟨rfl, rfl⟩ := Option.some.inj h |> Prod.mk.inj
      exact ⟨hs.setWorker fun _ => by assumption, rfl⟩
    · cases h

theorem Reachable.inv (h : Reachable s) : Inv s := by
  induction h with
  | init h => exact init_inv h
  | next _ hstep ih => exact (step_inv ih hstep).1

theorem reachable_of_run (hs : Reachable s) {es : List (Event W n)} {os : List (Return n)}
    (h : run s es = some (s', os)) : Reachable s' := by
  induction es generalizing s os with
  | nil => exact (Prod.mk.inj (Option.some.inj h)).1 ▸ hs
  | cons e es ih =>
    simp only [run, Option.bind_eq_some, Option.map_eq_some'] at h
    obtain ⟨⟨s₁, o⟩, hstep, ⟨s₂, os₂⟩, hrun, hq⟩ := h
    obtain ⟨rfl, rfl⟩ := Prod.mk.inj hq
    exact ih (.next hs hstep) hrun

/-- An uninterrupted call is `check_virgin_maps`: the local test and the locked section when the
local test finds something, the local test alone otherwise. -/
theorem run_call {w : W} (cov : Bitmap n) (hw : (s.workers w).pending = none) :
    let r := checkVirginMaps cov (s.workers w).localVirgin s.globalVirgin
    ∃ es ∈ [[Event.check w cov, .lock w], [.check w cov]],
      run s es = some (⟨r.2.2, Function.update s.workers w ⟨r.2.1, none⟩⟩, [(cov, r.1)]) := by
  simp only [checkVirginMaps]
  split
  · exact ⟨_, .head _, by simp [run, step, hw, *, State.setWorker]⟩
  · exact ⟨_, .tail _ (.head _), by simp [run, step, hw, *, State.setWorker]⟩

end Step

/-! ## Whole runs -/

section Run

variable {s s' : State W n}

theorem globalReports_cleared (g : Bitmap n) (covs : List (Bitmap n)) :
    ∀ b ∈ globalReports g covs, ∃ cov g₂, Covers g g₂ ∧ b = cleared cov g₂ := by
  induction covs generalizing g with
  | nil => simp [globalReports]
  | cons cov covs ih =>
    simp only [globalReports, List.mem_cons, forall_eq_or_imp]
    refine ⟨⟨cov, g, Covers.refl g, rfl⟩, fun b hb => ?_⟩
    obtain ⟨cov₂, g₂, hg₂, rfl⟩ := ih _ b hb
    exact ⟨cov₂, g₂, (covers_clear cov g).trans hg₂, rfl⟩

theorem globalReports_pairwise_disjoint (g : Bitmap n) (covs : List (Bitmap n)) :
    (globalReports g covs).Pairwise Disjoint := by
  induction covs generalizing g with
  | nil => exact List.Pairwise.nil
  | cons cov covs ih =>
    refine List.Pairwise.cons (fun b hb => ?_) (ih _)
    obtain ⟨cov₂, g₂, hg₂, rfl⟩ := globalReports_cleared _ _ b hb
    exact disjoint_cleared hg₂

/-- **A run of the two-level system is a run of the plain global check.**  The calls that
return, taken in the order they return, get from the global check the same answers, and leave
the same global map. -/
theorem run_refines_globalRun (hs : Inv s) {es : List (Event W n)} {os : List (Return n)}
    (h : run s es = some (s', os)) :
    Inv s' ∧ globalRun s.globalVirgin (os.map Prod.fst) = (os.map Prod.snd, s'.globalVirgin) := by
  induction es generalizing s os with
  | nil =>
    obtain ⟨rfl, rfl⟩ := Option.some.inj h |> Prod.mk.inj
    exact ⟨hs, rfl⟩
  | cons e es ih =>
    simp only [run, Option.bind_eq_some, Option.map_eq_some'] at h
    obtain ⟨⟨s₁, o⟩, hstep, ⟨s₂, os₂⟩, hrun, hq⟩ := h
    obtain ⟨rfl, rfl⟩ := Prod.mk.inj hq
    obtain ⟨hs₁, heff⟩ := step_inv hs hstep
    obtain ⟨hs₂, hglob⟩ := ih hs₁ hrun
    refine ⟨hs₂, ?_⟩
    cases o with
    | none =>
      simp only [Effect] at heff
      simpa [heff] using hglob
    | some p =>
      obtain ⟨cov, r⟩ := p
      simp only [Effect] at heff
      simp [globalRun, heff, hglob]

end Run

/-! ## Every reachable state -/

/-- What the two-level check guarantees from a state `s` on: local maps cover the global map;
a worker not inside a call that calls now, uninterrupted, gets `check_virgin_maps`' answer, which
is `has_new_bit`'s on the global map; every step acts on the global map as `has_new_bit` of the
call returning there (a call answers new exactly when it clears a bit of the global map); and
every run from `s` is a run of the plain global check in which no bit is reported twice. -/
structure Linearizable (s : State W n) : Prop where
  covers : Inv s
  calls : ∀ w cov, (s.workers w).pending = none →
    let r := checkVirginMaps cov (s.workers w).localVirgin s.globalVirgin
    (r.1, r.2.2) = hasNewBit cov s.globalVirgin ∧
      ∃ es ∈ [[Event.check w cov, .lock w], [.check w cov]],
        run s es = some (⟨r.2.2, Function.update s.workers w ⟨r.2.1, none⟩⟩, [(cov, r.1)])
  returns : ∀ e s' cov r, step s e = some (s', some (cov, r)) →
    hasNewBit cov s.globalVirgin = (r, s'.globalVirgin) ∧
      (r ≠ .noNew ↔ s'.globalVirgin ≠ s.globalVirgin)
  silent : ∀ e s', step s e = some (s', none) → s'.globalVirgin = s.globalVirgin
  runs : ∀ es s' os, run s es = some (s', os) →
    globalRun s.globalVirgin (os.map Prod.fst) = (os.map Prod.snd, s'.globalVirgin) ∧
      (globalReports s.globalVirgin (os.map Prod.fst)).Pairwise Disjoint

theorem reachable_linearizable {s : State W n} (hs : Reachable s) : Linearizable s := by
  have hinv := hs.inv
  refine ⟨hinv, fun w cov hw => ⟨checkVirginMaps_of_covers (hinv w hw), run_call cov hw⟩,
    fun e s' cov r h => ?_, fun e s' h => (step_inv hinv h).2, fun es s' os h =>
    ⟨(run_refines_globalRun hinv h).2, globalReports_pairwise_disjoint _ _⟩⟩
  have heff : hasNewBit cov s.globalVirgin = (r, s'.globalVirgin) := (step_inv hinv h).2
  have hclear : clear cov s.globalVirgin = s'.globalVirgin := congrArg Prod.snd heff
  have hiff : (hasNewBit cov s.globalVirgin).1 = .noNew ↔ clear cov s.globalVirgin = _ :=
    hasNewBit_fst_eq_noNew
  exact ⟨heff, not_congr (by simpa only [heff, hclear] using hiff)⟩

def initState : State Unit 1 := ⟨newInMem 1 0xff, fun _ => ⟨newInMem 1 0xff, none⟩⟩

def edgeCov : Bitmap 1 := newInMem 1 1

/-- A call whose coverage is new takes the mutex and answers `NewEdge`; the state it leaves is
linearizable. -/
theorem edgeCall_linearizable :
    ∃ s', run initState [.check () edgeCov, .lock ()] = some (s', [(edgeCov, .newEdge)]) ∧
      Linearizable s' := by
  obtain ⟨s', h⟩ : ∃ s', run initState [.check () edgeCov, .lock ()] =
      some (s', [(edgeCov, .newEdge)]) := ⟨_, rfl⟩
  have h0 : Reachable initState := .init ⟨rfl, fun _ => ⟨rfl, covers_newInMem_ff _⟩⟩
  exact ⟨s', h, reachable_linearizable (reachable_of_run h0 h)⟩

end FuzztructionNet.VirginMaps
