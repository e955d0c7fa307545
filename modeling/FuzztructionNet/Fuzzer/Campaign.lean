import Mathlib.Data.List.Nodup
import Mathlib.Data.List.Infix

/-!
# Restarting crashed workers

`FuzzingCampaign::restart_crashed_worker` collects the workers that are dead and not yet in
the `restarted_worker` registry, and then, for each of them in turn, either stops (when the
registry already holds more than `MAX_WORKER_RESTART_CNT` uids, after recording all of them) or
records the uid and spawns a replacement with `spawn_additional_worker`.  A spawn may fail, and
the error is returned at once.

The campaign is a state machine whose steps are worker deaths and calls of
`restart_crashed_worker`.  `MAX_WORKER_RESTART_CNT` lives in a module that is not among the
sources and is a parameter `maxCnt`.  Worker uids come from a counter, so they are unique.
-/

namespace FuzztructionNet.Campaign

structure WorkerProxy where
  uid : ℕ
  alive : Bool
  deriving DecidableEq

/-- A `FuzzingCampaign`, as far as restarts go. -/
structure FuzzingCampaign where
  workers : List WorkerProxy
  restartedWorker : List ℕ
  nextUid : ℕ
  deriving DecidableEq

namespace FuzzingCampaign

def new : FuzzingCampaign := ⟨[], [], 0⟩

def spawnWorker (c : FuzzingCampaign) : FuzzingCampaign :=
  { c with workers := c.workers ++ [⟨c.nextUid, true⟩], nextUid := c.nextUid + 1 }

/-- `FuzzingCampaign::start(worker_cnt)`, every spawn succeeding. -/
def start (c : FuzzingCampaign) (workerCnt : ℕ) : FuzzingCampaign :=
  (List.range workerCnt).foldl (fun c _ => c.spawnWorker) c

/-- `FuzzingCampaign::spawn_additional_worker`; `spawnOk` says whether `worker.spawn()`
succeeds. -/
def spawnAdditionalWorker (c : FuzzingCampaign) (spawnOk : Bool) : Option FuzzingCampaign :=
  if spawnOk then some c.spawnWorker else none

def kill (c : FuzzingCampaign) (u : ℕ) : FuzzingCampaign :=
  { c with workers := c.workers.map fun w => if w.uid = u then { w with alive := false } else w }

/-- The first loop of `restart_crashed_worker`: the uids of the dead workers that are not in
the registry, in order. -/
def crashedWorkers (c : FuzzingCampaign) : List ℕ :=
  (c.workers.filter fun w => !w.alive && !c.restartedWorker.contains w.uid).map (·.uid)

/-- The second loop of `restart_crashed_worker`, over the uids `todo` still to handle of the
list `crashed`; `spawnOk u` says whether the replacement spawned on account of `u` starts.
Returns the campaign, the uids on whose account a worker was spawned, and whether the call
ended without an error. -/
def restartLoop (maxCnt : ℕ) (spawnOk : ℕ → Bool) (crashed : List ℕ) :
    List ℕ → FuzzingCampaign → FuzzingCampaign × List ℕ × Bool
  | [], c => (c, [], true)
  | u :: todo, c =>
    if c.restartedWorker.length > maxCnt then
      ({ c with restartedWorker := c.restartedWorker ++ crashed }, [], true)
    else
      let c := { c with restartedWorker := c.restartedWorker ++ [u] }
      match c.spawnAdditionalWorker (spawnOk u) with
      | none => (c, [], false)
      | some c =>
        let r := restartLoop maxCnt spawnOk crashed todo c
        (r.1, u :: r.2.1, r.2.2)

def restartCrashedWorker (maxCnt : ℕ) (spawnOk : ℕ → Bool) (c : FuzzingCampaign) :
    FuzzingCampaign × List ℕ × Bool :=
  restartLoop maxCnt spawnOk c.crashedWorkers c.crashedWorkers c

end FuzzingCampaign

open FuzzingCampaign

inductive Event
  | die (uid : ℕ)
  /-- `restart_crashed_worker` runs; `spawnOk u` says whether the replacement spawned on
  account of `u` starts. -/
  | restart (spawnOk : ℕ → Bool)

def step (maxCnt : ℕ) (c : FuzzingCampaign) : Event → FuzzingCampaign × List ℕ
  | .die u => (c.kill u, [])
  | .restart spawnOk =>
    let r := c.restartCrashedWorker maxCnt spawnOk
    (r.1, r.2.1)

def run (maxCnt : ℕ) (c : FuzzingCampaign) : List Event → FuzzingCampaign × List ℕ
  | [] => (c, [])
  | e :: es =>
    let r := run maxCnt (step maxCnt c e).1 es
    (r.1, (step maxCnt c e).2 ++ r.2)

/-- A campaign before any restart: the registry is empty and worker uids are unique and below
the counter. -/
def Init (c : FuzzingCampaign) : Prop :=
  c.restartedWorker = [] ∧ (c.workers.map (·.uid)).Nodup ∧ ∀ w ∈ c.workers, w.uid < c.nextUid

def UidsOk (c : FuzzingCampaign) : Prop :=
  (c.workers.map (·.uid)).Nodup ∧ ∀ w ∈ c.workers, w.uid < c.nextUid

namespace FuzzingCampaign

@[simp] theorem spawnWorker_restartedWorker (c : FuzzingCampaign) :
    c.spawnWorker.restartedWorker = c.restartedWorker := rfl

end FuzzingCampaign

namespace UidsOk

variable {c : FuzzingCampaign}

theorem spawnWorker (h : UidsOk c) : UidsOk c.spawnWorker := by
  refine ⟨?_, fun w hw => ?_⟩
  · simp only [FuzzingCampaign.spawnWorker, List.map_append, List.map_cons, List.map_nil]
    exact h.1.append (List.nodup_singleton _) fun u hu hu' => by
      obtain ⟨w, hw, rfl⟩ := List.mem_map.mp hu
      simp only [List.mem_singleton] at hu'
      exact absurd (hu' ▸ h.2 w hw) (lt_irrefl _)
  · simp only [FuzzingCampaign.spawnWorker, List.mem_append, List.mem_singleton] at hw
    rcases hw with hw | rfl
    · exact (h.2 w hw).trans (Nat.lt_succ_self _)
    · exact Nat.lt_succ_self _

theorem kill (h : UidsOk c) (u : ℕ) : UidsOk (c.kill u) := by
  have huid : (c.kill u).workers.map (·.uid) = c.workers.map (·.uid) := by
    simp only [FuzzingCampaign.kill, List.map_map]
    exact List.map_congr_left fun w _ => by by_cases hw : w.uid = u <;> simp [hw]
  refine ⟨huid ▸ h.1, fun w hw => ?_⟩
  simp only [FuzzingCampaign.kill, List.mem_map] at hw
  obtain ⟨w', hw', rfl⟩ := hw
  by_cases hu : w'.uid = u <;> simpa [hu] using h.2 w' hw'

end UidsOk

namespace FuzzingCampaign

variable {c : FuzzingCampaign}

theorem mem_crashedWorkers {u : ℕ} :
    u ∈ c.crashedWorkers ↔
      (∃ w ∈ c.workers, w.uid = u ∧ w.alive = false) ∧ u ∉ c.restartedWorker := by
  simp only [crashedWorkers, List.contains, List.elem_eq_mem, List.mem_map, List.mem_filter,
    Bool.and_eq_true, Bool.not_eq_true', decide_eq_false_iff_not]
  constructor
  · rintro ⟨w, ⟨hw, halive, hnot⟩, rfl⟩
    exact ⟨⟨w, hw, rfl, halive⟩, hnot⟩
  · rintro ⟨⟨w, hw, rfl, halive⟩, hnot⟩
    exact ⟨w, ⟨hw, halive, hnot⟩, rfl⟩

theorem crashedWorkers_nodup (h : UidsOk c) : c.crashedWorkers.Nodup :=
  ((List.filter_sublist _).map _).nodup h.1

end FuzzingCampaign

/-! ## The restart loop -/

/-- What the second loop of `restart_crashed_worker` does, from `c` to `c'`, handling `todo`
and spawning on account of `acc`. -/
structure LoopFacts (maxCnt : ℕ) (c c' : FuzzingCampaign) (todo acc : List ℕ) : Prop where
  grows : c.restartedWorker <+: c'.restartedWorker
  count : c.restartedWorker.length + acc.length ≤ c'.restartedWorker.length
  bound : acc = [] ∨ c.restartedWorker.length + acc.length ≤ maxCnt + 1
  sub : acc.Sublist todo
  recorded : ∀ u ∈ acc, u ∈ c'.restartedWorker
  uids : UidsOk c → UidsOk c'

theorem restartLoop_facts (maxCnt : ℕ) (spawnOk : ℕ → Bool) (crashed : List ℕ) :
    ∀ (todo : List ℕ) (c : FuzzingCampaign),
      let r := restartLoop maxCnt spawnOk crashed todo c
      LoopFacts maxCnt c r.1 todo r.2.1
  | [], c => ⟨List.prefix_refl _, by simp [restartLoop], .inl rfl, List.nil_sublist _,
      by simp [restartLoop], id⟩
  | u :: todo, c => by
    by_cases hle : c.restartedWorker.length > maxCnt
    · simp only [restartLoop, if_pos hle]
      exact ⟨List.prefix_append _ _, by simp, .inl rfl, List.nil_sublist _, by simp, id⟩
    cases hsp : spawnOk u
    · simp only [restartLoop, if_neg hle, spawnAdditionalWorker, hsp]
      exact ⟨List.prefix_append _ _, by simp, .inl rfl, List.nil_sublist _, by simp, id⟩
    simp only [restartLoop, if_neg hle, spawnAdditionalWorker, hsp, if_true]
    obtain ⟨hgrows, hcount, hbound, hsub, hrec, huids⟩ := restartLoop_facts maxCnt spawnOk
      crashed todo { c with restartedWorker := c.restartedWorker ++ [u] }.spawnWorker
    simp only [spawnWorker_restartedWorker, List.length_append, List.length_singleton] at hcount hbound
    refine ⟨(List.prefix_append _ _).trans hgrows, by simp; omega, .inr ?_, hsub.cons₂ u, ?_,
      fun h => huids (UidsOk.spawnWorker h)⟩
    · rcases hbound with hnil | hb
      · simp [hnil]; omega
      · simp; omega
    · simp only [List.mem_cons, forall_eq_or_imp]
      exact ⟨hgrows.subset (by simp), hrec⟩

/-! ## Steps and runs -/

section Run

variable {maxCnt : ℕ} {c : FuzzingCampaign} {e : Event} {es : List Event}

theorem step_facts (maxCnt : ℕ) (c : FuzzingCampaign) (e : Event) :
    LoopFacts maxCnt c (step maxCnt c e).1 c.crashedWorkers (step maxCnt c e).2 := by
  cases e with
  | die u => exact ⟨List.prefix_refl _, by simp [step, kill], .inl rfl, List.nil_sublist _,
      by simp [step], fun h => h.kill u⟩
  | restart spawnOk => exact restartLoop_facts maxCnt spawnOk _ _ c

theorem mem_step_accounts {u : ℕ} (hu : u ∈ (step maxCnt c e).2) :
    (∃ w ∈ c.workers, w.uid = u ∧ w.alive = false) ∧ u ∉ c.restartedWorker :=
  mem_crashedWorkers.mp ((step_facts maxCnt c e).sub.subset hu)

@[simp] theorem run_nil : run maxCnt c [] = (c, []) := rfl

@[simp] theorem run_cons :
    run maxCnt c (e :: es) =
      ((run maxCnt (step maxCnt c e).1 es).1,
        (step maxCnt c e).2 ++ (run maxCnt (step maxCnt c e).1 es).2) := rfl

/-- Over a run, the registry grows by at least one entry per spawn, and spawns happen only while
it holds at most `maxCnt` uids: `k` spawns before the run give `k + ` the run's spawns, bounded by
the final registry and by `maxCnt + 1`. -/
theorem run_count (k : ℕ) (hk : k ≤ c.restartedWorker.length) (hkm : k ≤ maxCnt + 1) :
    k + (run maxCnt c es).2.length ≤ (run maxCnt c es).1.restartedWorker.length ∧
      k + (run maxCnt c es).2.length ≤ maxCnt + 1 := by
  induction es generalizing c k with
  | nil => simpa using ⟨hk, hkm⟩
  | cons e es ih =>
    obtain ⟨-, hcount, hbound, -, -, -⟩ := step_facts maxCnt c e
    have hk' : k + (step maxCnt c e).2.length ≤ maxCnt + 1 := by
      rcases hbound with h | h
      · simpa [h] using hkm
      · omega
    have hk₁ : k + (step maxCnt c e).2.length ≤ (step maxCnt c e).1.restartedWorker.length := by
      omega
    obtain ⟨h1, h2⟩ := ih _ hk₁ hk'
    simp only [run_cons, List.length_append]
    omega

/-- **At most `MAX_WORKER_RESTART_CNT + 1` workers are spawned by restarts over a campaign's
lifetime.** -/
theorem run_spawned_le_succ : (run maxCnt c es).2.length ≤ maxCnt + 1 := by
  simpa using (run_count 0 (Nat.zero_le c.restartedWorker.length) (Nat.zero_le (maxCnt + 1))).2

/-- Three workers die in turn, with a call of `restart_crashed_worker` after each death and
every spawn succeeding. -/
def threeDeaths : List Event :=
  [.die 0, .restart fun _ => true, .die 1, .restart fun _ => true, .die 2, .restart fun _ => true]

/-- With `MAX_WORKER_RESTART_CNT = 2`, three deaths in turn get three replacements. -/
theorem restart_three_of_two : (run 2 (new.start 3) threeDeaths).2 = [0, 1, 2] := by
  decide

/-- Over a run from a campaign with unique uids: uids stay unique, no uid is spawned on account
of twice or on account of a uid already in the registry, and every such uid ends in the
registry, which only grows. -/
theorem run_accounts (hu : UidsOk c) :
    UidsOk (run maxCnt c es).1 ∧ (run maxCnt c es).2.Nodup ∧
      (∀ u ∈ (run maxCnt c es).2, u ∉ c.restartedWorker ∧ u ∈ (run maxCnt c es).1.restartedWorker) ∧
      c.restartedWorker <+: (run maxCnt c es).1.restartedWorker := by
  induction es generalizing c with
  | nil => simpa using hu
  | cons e es ih =>
    have hf := step_facts maxCnt c e
    obtain ⟨hu', hnd, hacc, hgrows⟩ := ih (hf.uids hu)
    have hnd₁ : (step maxCnt c e).2.Nodup := hf.sub.nodup (crashedWorkers_nodup hu)
    simp only [run_cons, List.mem_append]
    refine ⟨hu', hnd₁.append hnd fun u h₁ h₂ => (hacc u h₂).1 (hf.recorded u h₁), ?_,
      hf.grows.trans hgrows⟩
    rintro u (h₁ | h₂)
    · exact ⟨(mem_step_accounts h₁).2, hgrows.subset (hf.recorded u h₁)⟩
    · exact ⟨fun hc => (hacc u h₂).1 (hf.grows.subset hc), (hacc u h₂).2⟩

end Run

/-- What the restart policy guarantees of a run that ends in `c` having spawned on account of
the uids `accs`: no uid twice, each one recorded; and from `c`, the next step spawns only on
account of dead workers, never on account of a recorded uid, and keeps the registry. -/
structure NoDoubleRestart (maxCnt : ℕ) (c : FuzzingCampaign) (accs : List ℕ) : Prop where
  onceEach : accs.Nodup
  recorded : ∀ u ∈ accs, u ∈ c.restartedWorker
  deadOnly : ∀ e, ∀ u ∈ (step maxCnt c e).2, ∃ w ∈ c.workers, w.uid = u ∧ w.alive = false
  grows : ∀ e, c.restartedWorker <+: (step maxCnt c e).1.restartedWorker
  recordedNever : ∀ e, ∀ u ∈ c.restartedWorker, u ∉ (step maxCnt c e).2

theorem run_noDoubleRestart {maxCnt : ℕ} {c₀ c : FuzzingCampaign} {es : List Event}
    {accs : List ℕ} (h0 : Init c₀) (h : run maxCnt c₀ es = (c, accs)) :
    NoDoubleRestart maxCnt c accs := by
  have hacc := @run_accounts maxCnt c₀ es ⟨h0.2.1, h0.2.2⟩
  rw [h] at hacc
  obtain ⟨-, hnd, hacc, -⟩ := hacc
  exact ⟨hnd, fun u hu => (hacc u hu).2, fun e u hu => (mem_step_accounts hu).1,
    fun e => (step_facts maxCnt c e).grows, fun e u hc hu => (mem_step_accounts hu).2 hc⟩

def afterThreeDeaths : FuzzingCampaign :=
  ⟨[⟨0, false⟩, ⟨1, false⟩, ⟨2, false⟩, ⟨3, true⟩, ⟨4, true⟩, ⟨5, true⟩], [0, 1, 2], 6⟩

theorem threeDeaths_noDoubleRestart :
    Init (new.start 3) ∧ run 2 (new.start 3) threeDeaths = (afterThreeDeaths, [0, 1, 2]) ∧
      NoDoubleRestart 2 afterThreeDeaths [0, 1, 2] :=
  have h0 : Init (new.start 3) := ⟨rfl, by decide, by decide⟩
  have h : run 2 (new.start 3) threeDeaths = (afterThreeDeaths, [0, 1, 2]) := by decide
  ⟨h0, h, run_noDoubleRestart h0 h⟩

/-! ## Running workers

A death moves a worker from running to crashed.  A restart records crashed uids and spawns one
running worker for each uid it restarts, so the running workers and the crashed ones not yet
recorded never outnumber the workers the campaign started with.  Below the restart cap, with
every spawn succeeding, one call restarts every crashed worker. -/

namespace FuzzingCampaign

def aliveCount (c : FuzzingCampaign) : ℕ := c.workers.countP (·.alive)

theorem countP_add_countP_not_and {α : Type} (l : List α) (p q : α → Bool) :
    l.countP p + l.countP (fun x => !p x && q x) = l.countP fun x => p x || q x := by
  induction l with
  | nil => rfl
  | cons x l ih => cases hp : p x <;> cases hq : q x <;> simp [List.countP_cons, hp, hq] <;> omega

theorem aliveCount_add_crashed (c : FuzzingCampaign) :
    c.aliveCount + c.crashedWorkers.length =
      c.workers.countP fun w => w.alive || !c.restartedWorker.contains w.uid := by
  rw [aliveCount, crashedWorkers, List.length_map, ← List.countP_eq_length_filter]
  exact countP_add_countP_not_and _ _ _

theorem countP_add_length_le {l acc : List ℕ} {q : ℕ → Bool} (hsub : acc.Sublist l)
    (hacc : ∀ u ∈ acc, q u = false) : l.countP q + acc.length ≤ l.length := by
  have h1 : acc.length ≤ l.countP fun u => ¬q u := by
    have := hsub.countP_le fun u => ¬q u
    rwa [List.countP_eq_length.2 fun u hu => by simp [hacc u hu]] at this
  have h2 := List.length_eq_countP_add_countP q l
  omega

theorem crashedWorkers_of_append {c c' : FuzzingCampaign} {fresh : List WorkerProxy}
    (hw : c'.workers = c.workers ++ fresh) (hfresh : ∀ w ∈ fresh, w.alive)
    (hreg : c.restartedWorker <+: c'.restartedWorker) :
    c'.crashedWorkers = c.crashedWorkers.filter fun u => !c'.restartedWorker.contains u := by
  have hnil : fresh.filter (fun w => !w.alive && !c'.restartedWorker.contains w.uid) = [] :=
    List.filter_eq_nil_iff.2 fun w hw => by simp [hfresh w hw]
  simp only [crashedWorkers, hw, List.filter_append, hnil, List.append_nil, List.filter_map,
    List.filter_filter]
  congr 1
  refine List.filter_congr fun w _ => ?_
  by_cases hr : w.uid ∈ c'.restartedWorker
  · simp [hr]
  · have : w.uid ∉ c.restartedWorker := fun h => hr (hreg.subset h)
    simp [hr, this]

theorem start_succ (c : FuzzingCampaign) (n : ℕ) : c.start (n + 1) = (c.start n).spawnWorker := by
  simp only [start, List.range_succ, List.foldl_append, List.foldl_cons, List.foldl_nil]

theorem start_workers (c : FuzzingCampaign) (workerCnt : ℕ) :
    ∃ fresh, (c.start workerCnt).workers = c.workers ++ fresh ∧ fresh.length = workerCnt ∧
      (∀ w ∈ fresh, w.alive) ∧ (c.start workerCnt).restartedWorker = c.restartedWorker := by
  induction workerCnt with
  | zero => exact ⟨[], by simp [start], rfl, by simp, rfl⟩
  | succ n ih =>
    obtain ⟨fresh, hw, hlen, halive, hreg⟩ := ih
    rw [start_succ]
    exact ⟨fresh ++ [⟨(c.start n).nextUid, true⟩], by simp [spawnWorker, hw], by simp [hlen],
      List.forall_mem_append.2 ⟨halive, by simp⟩, hreg⟩

end FuzzingCampaign

theorem restartLoop_workers (maxCnt : ℕ) (spawnOk : ℕ → Bool) (crashed : List ℕ) :
    ∀ (todo : List ℕ) (c : FuzzingCampaign), ∃ fresh,
      (restartLoop maxCnt spawnOk crashed todo c).1.workers = c.workers ++ fresh ∧
        fresh.length = (restartLoop maxCnt spawnOk crashed todo c).2.1.length ∧
        ∀ w ∈ fresh, w.alive
  | [], c => ⟨[], by simp [restartLoop], rfl, by simp⟩
  | u :: todo, c => by
    by_cases hle : c.restartedWorker.length > maxCnt
    · simp only [restartLoop, if_pos hle]
      exact ⟨[], by simp, rfl, by simp⟩
    cases hsp : spawnOk u
    · simp only [restartLoop, if_neg hle, spawnAdditionalWorker, hsp]
      exact ⟨[], by simp, rfl, by simp⟩
    simp only [restartLoop, if_neg hle, spawnAdditionalWorker, hsp, if_true]
    obtain ⟨fresh, hw, hlen, halive⟩ := restartLoop_workers maxCnt spawnOk crashed todo
      { c with restartedWorker := c.restartedWorker ++ [u] }.spawnWorker
    refine ⟨⟨c.nextUid, true⟩ :: fresh, by simpa [spawnWorker] using hw, by simp [hlen], ?_⟩
    simpa using halive

section Alive

variable {maxCnt : ℕ} {c : FuzzingCampaign}

theorem step_alive_crashed_le (e : Event) :
    (step maxCnt c e).1.aliveCount + (step maxCnt c e).1.crashedWorkers.length ≤
      c.aliveCount + c.crashedWorkers.length := by
  cases e with
  | die u =>
    simp only [step, aliveCount_add_crashed, kill, List.countP_map]
    exact List.countP_mono_left fun w _ h => by by_cases hw : w.uid = u <;> simp_all
  | restart spawnOk =>
    obtain ⟨hgrows, -, -, hsub, hrec, -⟩ := restartLoop_facts maxCnt spawnOk c.crashedWorkers
      c.crashedWorkers c
    obtain ⟨fresh, hw, hlen, halive⟩ := restartLoop_workers maxCnt spawnOk c.crashedWorkers
      c.crashedWorkers c
    simp only [step, restartCrashedWorker]
    generalize restartLoop maxCnt spawnOk c.crashedWorkers c.crashedWorkers c = r at *
    have hle := countP_add_length_le (q := fun u => !r.1.restartedWorker.contains u) hsub
      fun u hu => by simpa using hrec u hu
    simp only [aliveCount, crashedWorkers_of_append hw halive hgrows, hw, List.countP_append,
      List.countP_eq_length.2 halive, hlen, ← List.countP_eq_length_filter] at hle ⊢
    omega

theorem run_alive_crashed_le (es : List Event) :
    (run maxCnt c es).1.aliveCount + (run maxCnt c es).1.crashedWorkers.length ≤
      c.aliveCount + c.crashedWorkers.length := by
  induction es generalizing c with
  | nil => exact le_rfl
  | cons e es ih => exact ih.trans (step_alive_crashed_le e)

/-- **A campaign never runs more workers than it started with.**  After `start(workerCnt)` and
any sequence of worker deaths and calls of `restart_crashed_worker`, whatever the restart cap
and whichever spawns fail, the running workers and the crashed ones not yet recorded number at
most `workerCnt`. -/
theorem run_start_alive_le (maxCnt workerCnt : ℕ) (es : List Event) :
    (run maxCnt (new.start workerCnt) es).1.aliveCount +
      (run maxCnt (new.start workerCnt) es).1.crashedWorkers.length ≤ workerCnt := by
  obtain ⟨fresh, hw, hlen, halive, -⟩ := new.start_workers workerCnt
  have h0 : (new.start workerCnt).aliveCount + (new.start workerCnt).crashedWorkers.length =
      workerCnt := by
    rw [aliveCount_add_crashed, hw, ← hlen]
    exact List.countP_eq_length.2 fun w hw => by simp [new, halive w hw]
  exact (run_alive_crashed_le es).trans h0.le

end Alive

theorem restartLoop_all (maxCnt : ℕ) (spawnOk : ℕ → Bool) (crashed : List ℕ) :
    ∀ (todo : List ℕ) (c : FuzzingCampaign), c.restartedWorker.length + todo.length ≤ maxCnt + 1 →
      (∀ u ∈ todo, spawnOk u) →
      (restartLoop maxCnt spawnOk crashed todo c).2 = (todo, true) ∧
        (restartLoop maxCnt spawnOk crashed todo c).1.restartedWorker = c.restartedWorker ++ todo
  | [], c, _, _ => ⟨rfl, by simp [restartLoop]⟩
  | u :: todo, c, hcap, hok => by
    have hle : ¬c.restartedWorker.length > maxCnt := by
      simp only [List.length_cons] at hcap
      omega
    simp only [restartLoop, if_neg hle, spawnAdditionalWorker, hok u (List.mem_cons_self _ _),
      if_true]
    obtain ⟨h₁, h₂⟩ := restartLoop_all maxCnt spawnOk crashed todo
      { c with restartedWorker := c.restartedWorker ++ [u] }.spawnWorker
      (by simp only [spawnWorker_restartedWorker, List.length_append, List.length_singleton]
          simp only [List.length_cons] at hcap
          omega)
      fun v hv => hok v (List.mem_cons_of_mem _ hv)
    rw [h₁, h₂]
    simp

/-- **Below the restart cap, one call of `restart_crashed_worker` restarts every crashed
worker.**  When the registry and the crashed workers hold at most `MAX_WORKER_RESTART_CNT + 1`
uids and every spawn succeeds, the call returns `Ok`, spawns a worker on account of each crashed
uid in order, records them all, and leaves none crashed: the running workers grow by as many. -/
theorem restartCrashedWorker_restarts_all {maxCnt : ℕ} {spawnOk : ℕ → Bool} {c : FuzzingCampaign}
    (hcap : c.restartedWorker.length + c.crashedWorkers.length ≤ maxCnt + 1)
    (hok : ∀ u ∈ c.crashedWorkers, spawnOk u) :
    ∃ c', c.restartCrashedWorker maxCnt spawnOk = (c', c.crashedWorkers, true) ∧
      c'.restartedWorker = c.restartedWorker ++ c.crashedWorkers ∧
      c'.aliveCount = c.aliveCount + c.crashedWorkers.length ∧ c'.crashedWorkers = [] := by
  obtain ⟨h₁, h₂⟩ := restartLoop_all maxCnt spawnOk c.crashedWorkers c.crashedWorkers c hcap hok
  obtain ⟨fresh, hw, hlen, halive⟩ := restartLoop_workers maxCnt spawnOk c.crashedWorkers
    c.crashedWorkers c
  refine ⟨(restartLoop maxCnt spawnOk c.crashedWorkers c.crashedWorkers c).1, Prod.ext rfl h₁, h₂,
    ?_, ?_⟩
  · rw [h₁] at hlen
    simp only [aliveCount, hw, List.countP_append, List.countP_eq_length.2 halive, hlen]
  · rw [crashedWorkers_of_append hw halive (h₂ ▸ List.prefix_append _ _), h₂]
    exact List.filter_eq_nil_iff.2 fun u hu => by simp [hu]

theorem oneDeath_restarts_all :
    ((new.start 3).kill 0).restartedWorker.length + ((new.start 3).kill 0).crashedWorkers.length ≤
        2 + 1 ∧ (∀ u ∈ ((new.start 3).kill 0).crashedWorkers, (fun _ => true) u = true) ∧
      ∃ c', ((new.start 3).kill 0).restartCrashedWorker 2 (fun _ => true) =
          (c', ((new.start 3).kill 0).crashedWorkers, true) ∧
        c'.restartedWorker =
          ((new.start 3).kill 0).restartedWorker ++ ((new.start 3).kill 0).crashedWorkers ∧
        c'.aliveCount =
          ((new.start 3).kill 0).aliveCount + ((new.start 3).kill 0).crashedWorkers.length ∧
        c'.crashedWorkers = [] :=
  ⟨by decide, by decide, restartCrashedWorker_restarts_all (by decide) (by decide)⟩

/-! ## Pending crashes

A call of `restart_crashed_worker` that returns `Ok` has recorded every crashed worker: it
restarted each, or it reached the cap and recorded them all.  A call whose spawn fails has
recorded the uid whose replacement failed, so that worker is never restarted, and leaves the
crashed workers after it for the next call. -/

theorem restartLoop_registry (maxCnt : ℕ) (spawnOk : ℕ → Bool) (crashed : List ℕ) :
    ∀ (todo : List ℕ) (c : FuzzingCampaign), (∀ u ∈ todo, u ∈ crashed) →
      let r := restartLoop maxCnt spawnOk crashed todo c
      (r.2.2 = true → ∀ u ∈ todo, u ∈ r.1.restartedWorker) ∧
        (r.2.2 = false → ∃ u rest, todo = r.2.1 ++ u :: rest ∧
          r.1.restartedWorker = c.restartedWorker ++ r.2.1 ++ [u])
  | [], c, _ => ⟨by simp, by simp [restartLoop]⟩
  | u :: todo, c, htodo => by
    by_cases hle : c.restartedWorker.length > maxCnt
    · simp only [restartLoop, if_pos hle]
      exact ⟨fun _ v hv => List.mem_append_right _ (htodo v hv), by simp⟩
    cases hsp : spawnOk u
    · simp only [restartLoop, if_neg hle, spawnAdditionalWorker, hsp]
      exact ⟨by simp, fun _ => ⟨u, todo, rfl, by simp⟩⟩
    simp only [restartLoop, if_neg hle, spawnAdditionalWorker, hsp, if_true]
    have hgrows := (restartLoop_facts maxCnt spawnOk crashed todo
      { c with restartedWorker := c.restartedWorker ++ [u] }.spawnWorker).grows
    obtain ⟨hok, hfail⟩ := restartLoop_registry maxCnt spawnOk crashed todo
      { c with restartedWorker := c.restartedWorker ++ [u] }.spawnWorker
      fun v hv => htodo v (List.mem_cons_of_mem _ hv)
    refine ⟨fun h v hv => ?_, fun h => ?_⟩
    · rcases List.mem_cons.1 hv with rfl | hv
      · exact hgrows.subset (by simp)
      · exact hok h v hv
    · obtain ⟨v, rest, hsplit, hreg⟩ := hfail h
      refine ⟨v, rest, congrArg (u :: ·) hsplit, ?_⟩
      rw [hreg]
      simp

/-- **What a call of `restart_crashed_worker` leaves pending.**  From a campaign with unique
uids, a call that returns `Ok` leaves no crashed worker outside the registry; a call whose spawn
fails leaves exactly the crashed workers after the one whose replacement failed. -/
theorem restartCrashedWorker_pending {maxCnt : ℕ} {spawnOk : ℕ → Bool} {c : FuzzingCampaign}
    (hu : UidsOk c) :
    (c.restartCrashedWorker maxCnt spawnOk).1.crashedWorkers =
      if (c.restartCrashedWorker maxCnt spawnOk).2.2 then []
      else c.crashedWorkers.drop ((c.restartCrashedWorker maxCnt spawnOk).2.1.length + 1) := by
  obtain ⟨fresh, hw, -, halive⟩ := restartLoop_workers maxCnt spawnOk c.crashedWorkers
    c.crashedWorkers c
  have hgrows := (restartLoop_facts maxCnt spawnOk c.crashedWorkers c.crashedWorkers c).grows
  obtain ⟨hok, hfail⟩ := restartLoop_registry maxCnt spawnOk c.crashedWorkers
    c.crashedWorkers c fun _ h => h
  have hnd := crashedWorkers_nodup hu
  unfold restartCrashedWorker
  rw [crashedWorkers_of_append hw halive hgrows]
  generalize restartLoop maxCnt spawnOk c.crashedWorkers c.crashedWorkers c = r at *
  cases hr : r.2.2
  · obtain ⟨u, rest, hsplit, hreg⟩ := hfail hr
    rw [hsplit, List.nodup_append, List.nodup_cons] at hnd
    have hrest : ∀ v ∈ rest, v ∉ c.restartedWorker ++ r.2.1 ++ [u] := fun v hv => by
      have hvc : v ∈ c.crashedWorkers := hsplit ▸ by simp [hv]
      simp only [List.mem_append, List.mem_singleton, not_or]
      exact ⟨⟨(mem_crashedWorkers.1 hvc).2, fun h => hnd.2.2 h (List.mem_cons_of_mem _ hv)⟩,
        fun h => hnd.2.1.1 (h ▸ hv)⟩
    have hdrop : (r.2.1 ++ u :: rest).drop (r.2.1.length + 1) = rest := by
      simp [List.drop_append_eq_append_drop]
    rw [hreg, if_neg Bool.false_ne_true, hsplit, hdrop, List.filter_append, List.filter_cons,
      List.filter_eq_nil_iff.2 fun v hv => by simp [hv], List.filter_eq_self.2 fun v hv => by
        simpa using hrest v hv]
    simp
  · exact List.filter_eq_nil_iff.2 fun u hu => by simp [hok hr u hu]

theorem twoDeaths_failedSpawn_pending :
    UidsOk (((new.start 3).kill 0).kill 1) ∧
      ((((new.start 3).kill 0).kill 1).restartCrashedWorker 2 (· != 0)).1.crashedWorkers =
        if ((((new.start 3).kill 0).kill 1).restartCrashedWorker 2 (· != 0)).2.2 then []
        else (((new.start 3).kill 0).kill 1).crashedWorkers.drop
          (((((new.start 3).kill 0).kill 1).restartCrashedWorker 2 (· != 0)).2.1.length + 1) :=
  have hu : UidsOk (((new.start 3).kill 0).kill 1) := ⟨by decide, by decide⟩
  ⟨hu, restartCrashedWorker_pending hu⟩

example : ((((new.start 3).kill 0).kill 1).restartCrashedWorker 2 (· != 0)).1.crashedWorkers = [1] := by
  decide

end FuzztructionNet.Campaign
