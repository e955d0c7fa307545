import FuzztructionNet.Fuzzer.MutationCache
import FuzztructionNet.Config.Loading

/-!
# The Add phase

`FuzzingWorker::do_add_phase` extends the mutation cache of the queue entry being fuzzed with
patch points the entry's trace covered but which carry no mutation yet.
`add_phase_choose_candidates` builds a temporary cache over every patch point, overlays the
entry's cache, keeps the covered entries and resizes their masks.  The non-nop entries go into
`selection` as they are, and the nop ones are `candidates`.  Three blocks then move candidates
into `selection`: those whose id the `Cerebrum` reports as never fuzzed, those whose id
yielded new coverage, and random ones, each block at most its share of the batch.  The
selection is installed as the source's cache and its nop entries, shuffled, are returned;
`add_phase_prepare_mutations` gives each of them its mutators and `fuzz_candidates` runs them.

What `is_nop` tests lives in a crate that is not among the sources (and the specification
describes it two ways), so it is a parameter `isNop`: every result holds for any test.  The
random choices are explicit streams of numbers (`chooseMultiple`), so a theorem over every
stream is one over every outcome.  The sets of ids are lists, and no result needs them to be
free of duplicates.  The `?` exits on the source's and the cache's own errors are not
modelled; the model follows the run on which they succeed.

Every id appears in the temporary cache at most once, and each block extracts from what the
blocks before it left, so no entry is drawn twice: the installed cache is the non-nop entries
followed by the drawn ones, each class within its share, and the entries returned and fuzzed
are the drawn ones.  The only panic is that of `weights_sum` on select weights that sum to zero.
-/

namespace FuzztructionNet.AddPhase

open Configuration Mutation
open scoped List

variable {α : Type}

/-! ### Random choices -/

/-- One outcome of `choose_multiple(rng, amount)` on `l`, driven by the stream `rs`: `amount`
elements drawn without replacement (all of them when `l` is shorter), the `i`-th at position
`rs[i] % n` of the `n` not yet drawn.  Taking the first `amount` ids of a `HashSet`, whose
iteration order is arbitrary, has the same outcomes. -/
def chooseMultiple [DecidableEq α] : ℕ → List ℕ → List α → List α
  | 0, _, _ => []
  | _ + 1, _, [] => []
  | k + 1, rs, x :: xs =>
    let a := (x :: xs).get ⟨rs.headD 0 % (xs.length + 1), Nat.mod_lt _ xs.length.succ_pos⟩
    a :: chooseMultiple k rs.tail ((x :: xs).erase a)

def shuffle [DecidableEq α] (rs : List ℕ) (l : List α) : List α := chooseMultiple l.length rs l

/-- `Vec::extract_if`: the elements that satisfy `p`, in order, and the vector left. -/
def extractIf (p : α → Bool) (l : List α) : List α × List α :=
  (l.filter p, l.filter fun x => !p x)

section Choice

variable [DecidableEq α]

theorem chooseMultiple_subperm (k : ℕ) (rs : List ℕ) (l : List α) : chooseMultiple k rs l <+~ l := by
  induction k generalizing rs l with
  | zero => exact List.nil_subperm
  | succ k ih =>
    cases l with
    | nil => exact List.nil_subperm
    | cons x xs =>
      exact ((List.subperm_cons _).2 (ih _ _)).trans
        (List.perm_cons_erase (List.get_mem _ _ _)).symm.subperm

theorem length_chooseMultiple (k : ℕ) (rs : List ℕ) (l : List α) :
    (chooseMultiple k rs l).length = min k l.length := by
  induction k generalizing rs l with
  | zero => simp [chooseMultiple]
  | succ k ih =>
    cases l with
    | nil => simp [chooseMultiple]
    | cons x xs =>
      simp only [chooseMultiple, List.length_cons, ih,
        List.length_erase_of_mem (List.get_mem _ _ _)]
      omega

theorem length_chooseMultiple_le (k : ℕ) (rs : List ℕ) (l : List α) :
    (chooseMultiple k rs l).length ≤ k :=
  (length_chooseMultiple k rs l).trans_le (min_le_left _ _)

theorem shuffle_perm (rs : List ℕ) (l : List α) : shuffle rs l ~ l :=
  (chooseMultiple_subperm _ rs l).perm_of_length_le (by simp [length_chooseMultiple])

end Choice

section Extract

variable {p : α → Bool} {l a b : List α}

theorem extractIf_perm (h : extractIf p l = (a, b)) : a ++ b ~ l := by
  simp only [extractIf, Prod.mk.injEq] at h
  exact h.1 ▸ h.2 ▸ List.filter_append_perm p l

theorem mem_of_extractIf_fst (h : extractIf p l = (a, b)) {x : α} (hx : x ∈ a) : x ∈ l ∧ p x := by
  simp only [extractIf, Prod.mk.injEq] at h
  exact List.mem_filter.1 (h.1 ▸ hx)

theorem mem_of_extractIf_snd (h : extractIf p l = (a, b)) {x : α} (hx : x ∈ b) :
    x ∈ l ∧ !p x := by
  simp only [extractIf, Prod.mk.injEq] at h
  exact List.mem_filter.1 (h.2 ▸ hx)

theorem append_subperm_of_extractIf (h : extractIf p l = (a, b)) {rest : List α}
    (hr : rest <+~ b) : a ++ rest <+~ l :=
  ((List.subperm_append_left a).2 hr).trans (extractIf_perm h).subperm

theorem nodup_map_of_subperm {β : Type} {l₁ l₂ : List α} (f : α → β) (h : l₁ <+~ l₂)
    (hd : (l₂.map f).Nodup) : (l₁.map f).Nodup := by
  obtain ⟨l, hp, hs⟩ := h
  exact (hp.map f).nodup_iff.1 (hd.sublist (hs.map f))

theorem nodup_map_of_extractIf_snd {β : Type} (f : α → β) (h : extractIf p l = (a, b))
    (hl : (l.map f).Nodup) : (b.map f).Nodup :=
  nodup_map_of_subperm f ((List.sublist_append_right a b).subperm.trans (extractIf_perm h).subperm) hl

end Extract

/-! ### The selection -/

/-- What `add_phase_choose_candidates` reads of the `Cerebrum` through its query. -/
structure CerebrumQuery where
  patchPointsUnfuzzed : List MutationSiteID
  patchPointsYielded : List MutationSiteID

/-- The streams that decide the random choices of one call of `add_phase_choose_candidates`:
the iteration order of the covered unfuzzed ids, the two `choose_multiple` draws and the final
`shuffle`. -/
structure AddPhaseRng where
  unfuzzedOrder : List ℕ
  yielding : List ℕ
  random : List ℕ
  shuffle : List ℕ

/-- The closure `calc_share`: `((weight as f64 / weight_sum) * batch_size) as u32`, in binary64
arithmetic with the saturating cast. -/
def calcShare (weightSum batchSize weight : UInt32) : UInt32 :=
  (weight.toNat.toFloat / weightSum.toNat.toFloat * batchSize.toNat.toFloat).toUInt32

/-- The temporary cache: `from_patchpoints`, then `union_and_replace` with the entry's cache,
`remove_uncovered` and `resize_covered_entries` for the trace. -/
def tempCache (entryMc : MutationCache) (allPatchPoints : List PatchPoint)
    (coveredIds : List MutationSiteID) : MutationCache :=
  (((MutationCache.fromPatchpoints allPatchPoints).unionAndReplace entryMc).removeUncovered
    coveredIds).resizeCoveredEntries coveredIds

def selectByIds (selectCnt : ℕ) (rs : List ℕ) (ids coveredIds : List MutationSiteID)
    (candidates : List MutationCacheEntry) : List MutationCacheEntry × List MutationCacheEntry :=
  let selectedIds := chooseMultiple selectCnt rs (ids.filter (· ∈ coveredIds))
  extractIf (·.id ∈ selectedIds) candidates

theorem selectByIds_spec {selectCnt : ℕ} {rs : List ℕ} {ids coveredIds : List MutationSiteID}
    {l a b : List MutationCacheEntry} (h : selectByIds selectCnt rs ids coveredIds l = (a, b))
    (hl : (l.map MutationCacheEntry.id).Nodup) : a.length ≤ selectCnt ∧ ∀ x ∈ a, x.id ∈ ids := by
  let selectedIds := chooseMultiple selectCnt rs (ids.filter (· ∈ coveredIds))
  have hsel : ∀ x ∈ a, x.id ∈ selectedIds := fun x hx => by
    simpa using (mem_of_extractIf_fst h hx).2
  have hnodup : (a.map MutationCacheEntry.id).Nodup := nodup_map_of_subperm _
    ((List.sublist_append_left a b).subperm.trans (extractIf_perm h).subperm) hl
  have hsub : a.map MutationCacheEntry.id ⊆ selectedIds := fun y hy => by
    obtain ⟨x, hx, rfl⟩ := List.mem_map.1 hy
    exact hsel x hx
  refine ⟨?_, fun x hx => (List.mem_filter.1 ((chooseMultiple_subperm _ _ _).subset (hsel x hx))).1⟩
  calc a.length = (a.map MutationCacheEntry.id).length := (List.length_map _ _).symm
    _ ≤ selectedIds.length := (hnodup.subperm hsub).length_le
    _ ≤ selectCnt := length_chooseMultiple_le _ _ _

/-- `FuzzingWorker::add_phase_choose_candidates`: the cache it installs in the source and the
entries it returns, or `none` where `weights_sum` panics.  The `retain` after the random block
leaves `candidates` unread. -/
def addPhaseChooseCandidates (isNop : MutationCacheEntry → Bool) (config : AddPhaseConfig)
    (entryMc : MutationCache) (allPatchPoints : List PatchPoint) (coveredIds : List MutationSiteID)
    (query : CerebrumQuery) (rng : AddPhaseRng) :
    Option (MutationCache × List MutationCacheEntry) := do
  let tmpMc := tempCache entryMc allPatchPoints coveredIds
  let (selection, candidates) := extractIf (fun entry => !isNop entry) tmpMc.entries
  let weightSum ← config.weightsSum
  let calcShare := calcShare weightSum config.batchSize
  let (selectedCandidates, candidates) := selectByIds (calcShare config.selectUnfuzzedWeight).toNat
    rng.unfuzzedOrder query.patchPointsUnfuzzed coveredIds candidates
  let selection := selection ++ selectedCandidates
  let (selectedCandidates, candidates) := selectByIds (calcShare config.selectYieldingWeight).toNat
    rng.yielding query.patchPointsYielded coveredIds candidates
  let selection := selection ++ selectedCandidates
  let elements := chooseMultiple (calcShare config.selectRandomWeight).toNat rng.random candidates
  let selection := selection ++ elements
  let newMc := MutationCache.fromIter selection
  pure (newMc, shuffle rng.shuffle (newMc.entries.filter isNop))

/-- What one run of `add_phase_choose_candidates` promises, for the temporary cache `tmp`.  The
cache it installs is `tmp`'s non-nop entries followed by the drawn ones, `du ++ dy ++ dr`, which
are nop entries of `tmp`.  The unfuzzed class `du` and the yielding class `dy` hold ids of the
`Cerebrum`'s sets, each class is within its share, every installed id is covered, and the
entries returned are the drawn ones, each once.  That no two installed entries share an id is
the cache's own field `keyed`. -/
structure AddPhaseDraws (isNop : MutationCacheEntry → Bool) (tmp : MutationCache)
    (coveredIds : List MutationSiteID) (query : CerebrumQuery)
    (shareUnfuzzed shareYielding shareRandom : ℕ) (installed : MutationCache)
    (returned du dy dr : List MutationCacheEntry) : Prop where
  installed_eq : installed.entries = tmp.entries.filter (fun e => !isNop e) ++ (du ++ dy ++ dr)
  covered : ∀ e ∈ installed.entries, e.id ∈ coveredIds
  drawn_nop : ∀ e ∈ du ++ dy ++ dr, e ∈ tmp.entries ∧ isNop e
  unfuzzed : ∀ e ∈ du, e.id ∈ query.patchPointsUnfuzzed
  unfuzzed_le : du.length ≤ shareUnfuzzed
  yielded : ∀ e ∈ dy, e.id ∈ query.patchPointsYielded
  yielded_le : dy.length ≤ shareYielding
  random_le : dr.length ≤ shareRandom
  returned_perm : returned ~ du ++ dy ++ dr

section Selection

variable (isNop : MutationCacheEntry → Bool) (config : AddPhaseConfig) (entryMc : MutationCache)
  (allPatchPoints : List PatchPoint) (coveredIds : List MutationSiteID) (query : CerebrumQuery)
  (rng : AddPhaseRng)

/-- Where `weights_sum` does not panic, `add_phase_choose_candidates` installs a cache and
returns entries as `AddPhaseDraws` says, with the shares `calc_share` computes. -/
theorem addPhaseChooseCandidates_draws {weightSum : UInt32}
    (hw : config.weightsSum = some weightSum) :
    ∃ installed returned du dy dr,
      addPhaseChooseCandidates isNop config entryMc allPatchPoints coveredIds query rng =
        some (installed, returned) ∧
      AddPhaseDraws isNop (tempCache entryMc allPatchPoints coveredIds) coveredIds query
        (calcShare weightSum config.batchSize config.selectUnfuzzedWeight).toNat
        (calcShare weightSum config.batchSize config.selectYieldingWeight).toNat
        (calcShare weightSum config.batchSize config.selectRandomWeight).toNat
        installed returned du dy dr := by
  have hcov : ∀ e ∈ (tempCache entryMc allPatchPoints coveredIds).entries, e.id ∈ coveredIds :=
    fun _ he => MutationCache.id_mem_of_resized he
  unfold addPhaseChooseCandidates
  rw [hw]
  simp only [Option.pure_def, Option.bind_eq_bind, Option.some_bind]
  generalize tempCache entryMc allPatchPoints coveredIds = tmp at hcov ⊢
  rcases h0 : extractIf (fun entry => !isNop entry) tmp.entries with ⟨forced, cand0⟩
  rcases h1 : selectByIds (calcShare weightSum config.batchSize config.selectUnfuzzedWeight).toNat
    rng.unfuzzedOrder query.patchPointsUnfuzzed coveredIds cand0 with ⟨du, cand1⟩
  rcases h2 : selectByIds (calcShare weightSum config.batchSize config.selectYieldingWeight).toNat
    rng.yielding query.patchPointsYielded coveredIds cand1 with ⟨dy, cand2⟩
  generalize hdr : chooseMultiple _ rng.random cand2 = dr
  have hdr' : dr <+~ cand2 := hdr ▸ chooseMultiple_subperm _ _ _
  have hc0 := nodup_map_of_extractIf_snd _ h0 tmp.keyed
  -- each block draws from what the blocks before it left
  have hsel : forced ++ (du ++ dy ++ dr) <+~ tmp.entries := by
    simpa only [List.append_assoc] using append_subperm_of_extractIf h0
      (append_subperm_of_extractIf h1 (append_subperm_of_extractIf h2 hdr'))
  have hinst : (MutationCache.fromIter (forced ++ du ++ dy ++ dr)).entries =
      forced ++ (du ++ dy ++ dr) := by
    rw [MutationCache.fromIter_entries] <;> simp only [List.append_assoc]
    simpa only [List.append_assoc] using nodup_map_of_subperm _ hsel tmp.keyed
  have hcand : ∀ e ∈ du ++ dy ++ dr, e ∈ cand0 := by
    simp only [List.mem_append]
    rintro e ((he | he) | he)
    · exact (mem_of_extractIf_fst h1 he).1
    · exact (mem_of_extractIf_snd h1 (mem_of_extractIf_fst h2 he).1).1
    · exact (mem_of_extractIf_snd h1 (mem_of_extractIf_snd h2 (hdr'.subset he)).1).1
  have hnop : ∀ e ∈ du ++ dy ++ dr, e ∈ tmp.entries ∧ isNop e := fun e he => by
    simpa using mem_of_extractIf_snd h0 (hcand e he)
  have hforced : forced = tmp.entries.filter (fun e => !isNop e) := by
    simp only [extractIf, Prod.mk.injEq] at h0
    exact h0.1.symm
  -- the entries returned are the installed nop entries, which are the drawn ones
  have hreturned : (MutationCache.fromIter (forced ++ du ++ dy ++ dr)).entries.filter isNop =
      du ++ dy ++ dr := by
    have hf : forced.filter isNop = [] := List.filter_eq_nil_iff.2 fun e he => by
      simpa using (mem_of_extractIf_fst h0 he).2
    rw [hinst, List.filter_append, hf, List.filter_eq_self.2 fun e he => (hnop e he).2,
      List.nil_append]
  obtain ⟨hu_le, hu⟩ := selectByIds_spec h1 hc0
  obtain ⟨hy_le, hy⟩ := selectByIds_spec h2 (nodup_map_of_extractIf_snd _ h1 hc0)
  exact ⟨_, _, du, dy, dr, rfl, by rw [hinst, hforced], fun e he => hcov e
    (hsel.subset (hinst ▸ he)), hnop, hu, hu_le, hy, hy_le,
    hdr ▸ length_chooseMultiple_le _ _ _, hreturned ▸ shuffle_perm _ _⟩

end Selection

/-! ### Preparing and running the mutations -/

inductive Mutator
  | flipOnce (mask : List UInt8)
  | randomByte1 (mask : List UInt8) (iterations : ℕ)
  deriving DecidableEq

/-- Modelled from the spec: `RandomByte1::new` builds a mutator only for a non-empty mask. -/
def randomByte1New (mask : List UInt8) (iterations : ℕ) : Option Mutator :=
  if mask.isEmpty then none else some (.randomByte1 mask iterations)

def addIterations (mskLen : ℕ) : ℕ :=
  if mskLen ≤ 32 then 32 * mskLen else if mskLen ≤ 128 then 16 * mskLen else 16 * 128

/-- `FuzzingWorker::add_phase_prepare_mutations`, with one shuffle stream per candidate it
keeps.  `inject_debug_mutator`, defined in a module that is not among the sources, is left
out. -/
def addPhasePrepareMutations (isNop : MutationCacheEntry → Bool) :
    List (List ℕ) → List MutationCacheEntry → List (MutationCacheEntry × List Mutator)
  | _, [] => []
  | rss, candidate :: candidates =>
    if !isNop candidate then addPhasePrepareMutations isNop rss candidates
    else
      let mask := candidate.mask
      let mutators := Mutator.flipOnce mask :: (randomByte1New mask (addIterations mask.length)).toList
      (candidate, shuffle (rss.headD []) mutators) ::
        addPhasePrepareMutations isNop rss.tail candidates

structure FuzzCandidates where
  mutations : List (MutationCacheEntry × List Mutator)
  entryCovTimeout : Duration

/-- `FuzzingWorker::do_add_phase`: the cache installed in the source and the call of
`fuzz_candidates` it makes, if any, or `none` where it panics. -/
def doAddPhase (isNop : MutationCacheEntry → Bool) (phases : PhasesConfig)
    (entryMc : MutationCache) (allPatchPoints : List PatchPoint) (coveredIds : List MutationSiteID)
    (query : CerebrumQuery) (rng : AddPhaseRng) (mutatorRng : List (List ℕ)) :
    Option (MutationCache × Option FuzzCandidates) :=
  (addPhaseChooseCandidates isNop phases.add entryMc allPatchPoints coveredIds query rng).map
    fun (installed, candidates) =>
      if candidates.isEmpty then (installed, none)
      else
        let mutations := addPhasePrepareMutations isNop mutatorRng candidates
        (installed, if mutations.isEmpty then none
          else some ⟨mutations, phases.mutate.entryCovTimeout⟩)

theorem map_fst_addPhasePrepareMutations (isNop : MutationCacheEntry → Bool)
    {cs : List MutationCacheEntry} (h : ∀ c ∈ cs, isNop c) (rss : List (List ℕ)) :
    (addPhasePrepareMutations isNop rss cs).map Prod.fst = cs := by
  induction cs generalizing rss with
  | nil => rfl
  | cons c cs ih =>
    rw [List.forall_mem_cons] at h
    simp [addPhasePrepareMutations, h.1, ih h.2]

section Run

variable (isNop : MutationCacheEntry → Bool) (phases : PhasesConfig) (entryMc : MutationCache)
  (allPatchPoints : List PatchPoint) (coveredIds : List MutationSiteID) (query : CerebrumQuery)
  (rng : AddPhaseRng) (mutatorRng : List (List ℕ))

theorem doAddPhase_of_chooseCandidates {installed : MutationCache}
    {returned : List MutationCacheEntry}
    (h : addPhaseChooseCandidates isNop phases.add entryMc allPatchPoints coveredIds query rng =
      some (installed, returned))
    (hnop : ∀ e ∈ returned, isNop e) :
    doAddPhase isNop phases entryMc allPatchPoints coveredIds query rng mutatorRng =
      some (installed, if returned = [] then none
        else some ⟨addPhasePrepareMutations isNop mutatorRng returned,
          phases.mutate.entryCovTimeout⟩) := by
  have hfst := map_fst_addPhasePrepareMutations isNop hnop mutatorRng
  cases returned with
  | nil => simp [doAddPhase, h]
  | cons c cs =>
    have hne : addPhasePrepareMutations isNop mutatorRng (c :: cs) ≠ [] := fun he => by
      simp [he] at hfst
    simp [doAddPhase, h, hne]

/-- The Add phase, for every queue entry's trace, cache and patch points, every `Cerebrum`
snapshot, every config whose select weights `weights_sum` accepts and every outcome of the
random choices: the cache installed is the non-nop covered entries of the temporary cache
followed by three disjoint classes of nop entries, each within its share, and `do_add_phase`
fuzzes exactly the drawn entries, each once. -/
theorem doAddPhase_fuzzes_draws {weightSum : UInt32}
    (hw : phases.add.weightsSum = some weightSum) :
    ∃ installed returned du dy dr,
      addPhaseChooseCandidates isNop phases.add entryMc allPatchPoints coveredIds query rng =
        some (installed, returned) ∧
      AddPhaseDraws isNop (tempCache entryMc allPatchPoints coveredIds) coveredIds query
        (calcShare weightSum phases.add.batchSize phases.add.selectUnfuzzedWeight).toNat
        (calcShare weightSum phases.add.batchSize phases.add.selectYieldingWeight).toNat
        (calcShare weightSum phases.add.batchSize phases.add.selectRandomWeight).toNat
        installed returned du dy dr ∧
      doAddPhase isNop phases entryMc allPatchPoints coveredIds query rng mutatorRng =
        some (installed, if returned = [] then none
          else some ⟨addPhasePrepareMutations isNop mutatorRng returned,
            phases.mutate.entryCovTimeout⟩) ∧
      (addPhasePrepareMutations isNop mutatorRng returned).map Prod.fst = returned := by
  obtain ⟨installed, returned, du, dy, dr, h, hd⟩ :=
    addPhaseChooseCandidates_draws isNop phases.add entryMc allPatchPoints coveredIds query rng hw
  have hnop : ∀ e ∈ returned, isNop e := fun e he =>
    (hd.drawn_nop e (hd.returned_perm.subset he)).2
  exact ⟨installed, returned, du, dy, dr, h, hd,
    doAddPhase_of_chooseCandidates isNop phases entryMc allPatchPoints coveredIds query rng
      mutatorRng h hnop,
    map_fst_addPhasePrepareMutations isNop hnop mutatorRng⟩

theorem doAddPhase_eq_none_iff :
    doAddPhase isNop phases entryMc allPatchPoints coveredIds query rng mutatorRng = none ↔
      phases.add.weightsSum = none := by
  cases hw : phases.add.weightsSum with
  | none => simp [doAddPhase, addPhaseChooseCandidates, hw]
  | some w =>
    obtain ⟨_, _, _, _, _, h, -⟩ :=
      addPhaseChooseCandidates_draws isNop phases.add entryMc allPatchPoints coveredIds query rng hw
    simp [doAddPhase, h]

end Run

/-- The document of the configuration loader whose select weights are all zero is accepted, and
with its config every run of the Add phase panics. -/
theorem unusableDocument_addPhase_panics :
    ∃ c L, fromStr rootBuilder [unusableDocument] = .ok (c, L) ∧
      ∀ isNop entryMc allPatchPoints coveredIds query rng mutatorRng,
        doAddPhase isNop c.phases entryMc allPatchPoints coveredIds query rng mutatorRng = none :=
  ⟨_, _, rfl, fun _ _ _ _ _ _ _ => (doAddPhase_eq_none_iff _ _ _ _ _ _ _ _).2 (by decide)⟩

/-- Scenario 2 of the specification: patch points 7, 9 and 11, all covered, 7 unfuzzed and 9
yielding, select weights 1:1:1 and a batch of 3, masks whose bytes are all zero taken as nop. -/
def scenarioPatchPoints : List PatchPoint := [⟨⟨7⟩, 1⟩, ⟨⟨9⟩, 1⟩, ⟨⟨11⟩, 1⟩]

def scenarioCovered : List MutationSiteID := [⟨7⟩, ⟨9⟩, ⟨11⟩]

def scenarioQuery : CerebrumQuery := ⟨[⟨7⟩], [⟨9⟩]⟩

def scenarioPhases : PhasesConfig :=
  { PhasesConfig.default with add := { AddPhaseConfig.default with batchSize := 3 } }

def maskIsZero (e : MutationCacheEntry) : Bool := e.mask.all (· == 0)

theorem scenario_fuzzes_draws :
    scenarioPhases.add.weightsSum = some 3 ∧
    ∃ installed returned du dy dr,
      addPhaseChooseCandidates maskIsZero scenarioPhases.add .empty scenarioPatchPoints
        scenarioCovered scenarioQuery ⟨[], [], [], []⟩ = some (installed, returned) ∧
      AddPhaseDraws maskIsZero (tempCache .empty scenarioPatchPoints scenarioCovered)
        scenarioCovered scenarioQuery (calcShare 3 3 1).toNat (calcShare 3 3 1).toNat
        (calcShare 3 3 1).toNat installed returned du dy dr ∧
      doAddPhase maskIsZero scenarioPhases .empty scenarioPatchPoints scenarioCovered
        scenarioQuery ⟨[], [], [], []⟩ [] =
        some (installed, if returned = [] then none
          else some ⟨addPhasePrepareMutations maskIsZero [] returned,
            scenarioPhases.mutate.entryCovTimeout⟩) ∧
      (addPhasePrepareMutations maskIsZero [] returned).map Prod.fst = returned :=
  ⟨by decide, doAddPhase_fuzzes_draws maskIsZero scenarioPhases .empty scenarioPatchPoints
    scenarioCovered scenarioQuery ⟨[], [], [], []⟩ [] (by decide)⟩

end FuzztructionNet.AddPhase
