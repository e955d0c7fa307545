import FuzztructionNet.Config.Builder

/-!
# Which keys each section parser reads

Every `parse_*` function reads its attributes through `get_attribute` and then checks the
mapping's keys against its own list. This module proves that in every successful run each
parser reads every key on its list. The exception is `bin-path-cov`: it is on the list of
`parse_sink_section`, and that parser never reads it. The top-level list names the sections as
well; `from_str` reads those after `parse_general_section` returns.

Each primitive gets a lemma giving the log of a successful run. The section parsers are taken
through the rules of `SoundAfter` with them.
-/

namespace FuzztructionNet.Configuration

open Parse

/-! ## The logs of the primitives -/

theorem getAttribute_eq_ok [TryFromYaml α] {b : ConfigBuilder} {y : Yaml} {k : String} {a : α}
    {l : List Access} (h : getAttribute b y k = .ok (a, l)) : l = [.read y k] := by
  obtain ⟨v, l₁, l₂, h₁, h₂, rfl⟩ := bind_eq_ok.mp h
  rw [(read_eq_ok.mp h₁).2, (lift_eq_ok.mp h₂).2, List.append_nil]

theorem getOptionalSection_eq_ok {b : ConfigBuilder} {y : Yaml} {k : String} {o : Option Yaml}
    {l : List Access} (h : getOptionalSection b y k = .ok (o, l)) : l = [.read y k] := by
  obtain ⟨s, l₁, l₂, h₁, h₂, rfl⟩ := bind_eq_ok.mp h
  rw [getAttribute_eq_ok h₁, (pure_eq_ok.mp h₂).2, List.append_nil]

theorem keys_of_mapM_asStr {entries : List (Yaml × Yaml)} {keys : List String}
    (h : entries.mapM (fun e => e.1.asStr) = some keys) :
    ∀ e ∈ entries, ∃ k ∈ keys, e.1 = .string k := by
  induction entries generalizing keys with
  | nil => simp
  | cons e es ih =>
    simp only [List.mapM_cons, Option.bind_eq_bind, Option.bind_eq_some, Option.pure_def,
      Option.some.injEq] at h
    obtain ⟨k, hk, ks, hks, rfl⟩ := h
    intro e' he'
    rcases List.mem_cons.mp he' with rfl | he'
    · exact ⟨k, List.mem_cons_self _ _, Yaml.asStr_eq_some.mp hk⟩
    · obtain ⟨k', hk', he⟩ := ih hks e' he'
      exact ⟨k', List.mem_cons_of_mem _ hk', he⟩

theorem checkForUnparsedKeys_eq_ok {y : Yaml} {E : List String} {u : Unit} {l : List Access}
    (h : checkForUnparsedKeys y E = .ok (u, l)) : l = [.check y E] ∧ KeysIn y E := by
  unfold checkForUnparsedKeys at h
  split at h
  · cases h
  · rename_i entries hy
    split at h
    · cases h
    · rename_i keys hkeys
      split at h
      · cases h
      · rename_i hfind
        refine ⟨(Prod.mk.inj (ok_eq_ok.mp h)).2.symm, entries, Yaml.asHash_eq_some.mp hy,
          fun e he => ?_⟩
        obtain ⟨k, hk, he⟩ := keys_of_mapM_asStr hkeys e he
        have hin := List.find?_eq_none.mp hfind k hk
        exact ⟨k, he, by simpa [List.contains, List.elem_eq_mem] using hin⟩

theorem checkJail_eq_ok {jailUid jailGid : Option UInt32} {u : Unit} {l : List Access}
    (h : checkJail jailUid jailGid = .ok (u, l)) : l = [] ∧ jailUid.isSome = jailGid.isSome := by
  unfold checkJail at h
  split at h
  · exact ⟨(pure_eq_ok.mp h).2, rfl⟩
  · exact ⟨(pure_eq_ok.mp h).2, rfl⟩
  · cases h

theorem requireSection_eq_ok {name : String} {s : Yaml} {u : Unit} {l : List Access}
    (h : requireSection name s = .ok (u, l)) : l = [] := by
  unfold requireSection at h
  split at h
  · cases h
  · exact (pure_eq_ok.mp h).2

/-! ## Rules for the builder's steps -/

section Rules

variable {unread : List String} {R : List Access} {b : ConfigBuilder} {y : Yaml} {k : String}

theorem SoundAfter.getAttribute_bind {K : List String} [TryFromYaml α] {f : α → Parse β}
    (hf : ∀ a, SoundAfter unread ((K ++ [k]).map (Access.read y)) (f a)) :
    SoundAfter unread (K.map (Access.read y)) (getAttribute b y k >>= f) :=
  SoundAfter.bind_fixed (fun _ _ h => ⟨getAttribute_eq_ok h, sound_read y k⟩)
    fun a => by simpa using hf a

theorem SoundAfter.getOptionalSection_bind {K : List String} {f : Option Yaml → Parse β}
    (hf : ∀ a, SoundAfter unread ((K ++ [k]).map (Access.read y)) (f a)) :
    SoundAfter unread (K.map (Access.read y)) (getOptionalSection b y k >>= f) :=
  SoundAfter.bind_fixed (fun _ _ h => ⟨getOptionalSection_eq_ok h, sound_read y k⟩)
    fun a => by simpa using hf a

theorem reads_cover {E K : List String} (hE : ∀ k ∈ E, k ∈ K ∨ k ∈ unread) :
    ∀ k ∈ E, k ∉ unread → Access.read y k ∈ K.map (Access.read y) :=
  fun k hk hu => List.mem_map_of_mem _ ((hE k hk).resolve_right hu)

theorem cover_of_subset {E K : List String} (h : E ⊆ K) : ∀ k ∈ E, k ∈ K ∨ k ∈ unread :=
  fun _ hk => .inl (h hk)

theorem cover_of_subset_or {E K : List String} {x : String} (h : ∀ k ∈ E, k ∈ K ∨ k = x)
    (hx : x ∈ unread) : ∀ k ∈ E, k ∈ K ∨ k ∈ unread :=
  fun k hk => (h k hk).imp_right fun (hk' : k = x) => hk' ▸ hx

theorem SoundAfter.check_bind {E K : List String} {f : Unit → Parse β}
    (hE : ∀ k ∈ E, k ∈ K ∨ k ∈ unread) (hf : ∀ a, SoundAfter unread (K.map (Access.read y)) (f a)) :
    SoundAfter unread (K.map (Access.read y)) (checkForUnparsedKeys y E >>= f) :=
  SoundAfter.bind_fixed
    (fun _ _ h => ⟨(checkForUnparsedKeys_eq_ok h).1,
      sound_check (checkForUnparsedKeys_eq_ok h).2 (reads_cover hE)⟩)
    fun a => (hf a).mono (List.subset_append_left _ _)

theorem SoundAfter.checkContext_bind {E K : List String} {msg : String} {f : Unit → Parse β}
    (hE : ∀ k ∈ E, k ∈ K ∨ k ∈ unread) (hf : ∀ a, SoundAfter unread (K.map (Access.read y)) (f a)) :
    SoundAfter unread (K.map (Access.read y))
      (Parse.withContext msg (checkForUnparsedKeys y E) >>= f) :=
  SoundAfter.bind_fixed
    (fun _ _ h => have h := withContext_eq_ok.mp h
      ⟨(checkForUnparsedKeys_eq_ok h).1,
        sound_check (checkForUnparsedKeys_eq_ok h).2 (reads_cover hE)⟩)
    fun a => (hf a).mono (List.subset_append_left _ _)

theorem SoundAfter.checkJail_bind {u g : Option UInt32} {f : Unit → Parse β}
    (hf : ∀ a, SoundAfter unread R (f a)) : SoundAfter unread R (checkJail u g >>= f) :=
  SoundAfter.bind_fixed
    (fun _ _ h => ⟨(checkJail_eq_ok h).1, by simp [Sound]⟩) (by simpa using hf)

theorem SoundAfter.requireSection_bind {name : String} {f : Unit → Parse β}
    (hf : ∀ a, SoundAfter unread R (f a)) : SoundAfter unread R (requireSection name y >>= f) :=
  SoundAfter.bind_fixed
    (fun _ _ h => ⟨requireSection_eq_ok h, by simp [Sound]⟩) (by simpa using hf)

theorem soundAfter_firstDocument (docs : List Yaml) : SoundAfter unread [] (firstDocument docs) := by
  cases docs
  · intro a l h
    cases h
  · exact soundAfter_pure _

theorem soundAfter_optionalSection {parse : Yaml → Parse γ}
    (h : ∀ s, SoundAfter unread [] (parse s)) : SoundAfter unread [] (optionalSection y parse) := by
  unfold optionalSection
  split
  · exact soundAfter_pure _
  · exact SoundAfter.bind (h y) fun _ => soundAfter_pure _

end Rules

/-! ## The section parsers -/

section Sections

variable {unread : List String} (b : ConfigBuilder) (y : Yaml)

theorem parseSourceSection_sound : SoundAfter unread [] (parseSourceSection b y) := by
  show SoundAfter unread (([] : List String).map (Access.read y)) _
  unfold parseSourceSection
  repeat' first
    | apply SoundAfter.getAttribute_bind; intro _
    | refine SoundAfter.check_bind (cover_of_subset (by decide)) fun _ => ?_
    | exact soundAfter_pure _

theorem parseDiscoveryPhaseSection_sound :
    SoundAfter unread [] (parseDiscoveryPhaseSection b y) := by
  show SoundAfter unread (([] : List String).map (Access.read y)) _
  unfold parseDiscoveryPhaseSection
  repeat' first
    | apply SoundAfter.getAttribute_bind; intro _
    | refine SoundAfter.check_bind (cover_of_subset (by decide)) fun _ => ?_
    | exact soundAfter_pure _

theorem parseMutatePhaseSection_sound : SoundAfter unread [] (parseMutatePhaseSection b y) := by
  show SoundAfter unread (([] : List String).map (Access.read y)) _
  unfold parseMutatePhaseSection
  repeat' first
    | apply SoundAfter.getAttribute_bind; intro _
    | refine SoundAfter.check_bind (cover_of_subset (by decide)) fun _ => ?_
    | exact soundAfter_pure _

theorem parseAddPhaseSection_sound : SoundAfter unread [] (parseAddPhaseSection b y) := by
  show SoundAfter unread (([] : List String).map (Access.read y)) _
  unfold parseAddPhaseSection
  repeat' first
    | apply SoundAfter.getAttribute_bind; intro _
    | refine SoundAfter.check_bind (cover_of_subset (by decide)) fun _ => ?_
    | exact soundAfter_pure _

theorem parseCombinePhaseSection_sound : SoundAfter unread [] (parseCombinePhaseSection b y) := by
  show SoundAfter unread (([] : List String).map (Access.read y)) _
  unfold parseCombinePhaseSection
  repeat' first
    | apply SoundAfter.getAttribute_bind; intro _
    | refine SoundAfter.check_bind (cover_of_subset (by decide)) fun _ => ?_
    | exact soundAfter_pure _

theorem soundAfter_elim {o : Option Yaml} {d : γ} {g : Yaml → Parse γ}
    (hg : ∀ s, SoundAfter unread [] (g s)) : SoundAfter unread [] (o.elim (pure d) g) := by
  cases o
  · exact soundAfter_pure d
  · exact hg _

theorem parsePhasesSection_sound : SoundAfter unread [] (parsePhasesSection b y) := by
  show SoundAfter unread (([] : List String).map (Access.read y)) _
  unfold parsePhasesSection
  repeat' first
    | apply SoundAfter.getAttribute_bind; intro _
    | apply SoundAfter.getOptionalSection_bind; intro _
    | refine SoundAfter.check_bind (cover_of_subset (by decide)) fun _ => ?_
    | exact soundAfter_pure _
    | apply SoundAfter.bind (soundAfter_elim fun s =>
        (parseDiscoveryPhaseSection_sound b s).withContext _); intro _
    | apply SoundAfter.bind (soundAfter_elim fun s =>
        (parseMutatePhaseSection_sound b s).withContext _); intro _
    | apply SoundAfter.bind (soundAfter_elim fun s =>
        (parseAddPhaseSection_sound b s).withContext _); intro _
    | apply SoundAfter.bind (soundAfter_elim fun s =>
        (parseCombinePhaseSection_sound b s).withContext _); intro _

theorem parseAflSection_sound {mk : PathBuf → List (String × String) → PathBuf → String → String →
    Bool → Bool → γ} : SoundAfter unread [] (parseAflSection mk b y) := by
  show SoundAfter unread (([] : List String).map (Access.read y)) _
  unfold parseAflSection
  repeat' first
    | apply SoundAfter.getAttribute_bind; intro _
    | refine SoundAfter.check_bind (cover_of_subset (by decide)) fun _ => ?_
    | exact soundAfter_pure _

theorem parseSgfuzzSection_sound : SoundAfter unread [] (parseSgfuzzSection b y) := by
  show SoundAfter unread (([] : List String).map (Access.read y)) _
  unfold parseSgfuzzSection
  repeat' first
    | apply SoundAfter.getAttribute_bind; intro _
    | refine SoundAfter.check_bind (cover_of_subset (by decide)) fun _ => ?_
    | exact soundAfter_pure _

/-- The sink parser reads every key on its list but `bin-path-cov`. -/
theorem parseSinkSection_sound (h : "bin-path-cov" ∈ unread) :
    SoundAfter unread [] (parseSinkSection b y) := by
  show SoundAfter unread (([] : List String).map (Access.read y)) _
  unfold parseSinkSection
  repeat' first
    | apply SoundAfter.getAttribute_bind; intro _
    | refine SoundAfter.checkContext_bind (cover_of_subset_or (by decide) h) fun _ => ?_
    | exact soundAfter_pure _

theorem parseSinkCovSection_sound : SoundAfter unread [] (parseSinkCovSection b y) := by
  show SoundAfter unread (([] : List String).map (Access.read y)) _
  unfold parseSinkCovSection
  apply SoundAfter.getAttribute_bind; intro _
  apply SoundAfter.getAttribute_bind; intro _
  apply SoundAfter.getAttribute_bind; intro _
  refine SoundAfter.check_bind (cover_of_subset (by decide)) fun _ => ?_
  exact soundAfter_pure _

theorem parseVanillaSection_sound (arguments : List String) :
    SoundAfter unread [] (parseVanillaSection b y arguments) := by
  show SoundAfter unread (([] : List String).map (Access.read y)) _
  unfold parseVanillaSection
  repeat' first
    | apply SoundAfter.getAttribute_bind; intro _
    | refine SoundAfter.check_bind (cover_of_subset (by decide)) fun _ => ?_
    | exact soundAfter_pure _

def sectionNames : List String :=
  ["source", "phases", "sink", "sink-cov", "afl-net", "state-afl", "sgfuzz", "vanilla"]

theorem parseGeneralSection_sound :
    SoundAfter unread (sectionNames.map (Access.read y)) (parseGeneralSection b y) := by
  unfold parseGeneralSection
  repeat' first
    | apply SoundAfter.getAttribute_bind; intro _
    | apply SoundAfter.checkJail_bind; intro _
    | refine SoundAfter.check_bind (cover_of_subset (by decide)) fun _ => ?_
    | exact soundAfter_pure _

end Sections

/-! ## `from_str` -/

/-- **Every check of a successful `from_str` is sound**: each key on its list, except
`bin-path-cov`, is read from the mapping it checked. -/
theorem fromStr_sound (b : ConfigBuilder) (docs : List Yaml) :
    SoundAfter ["bin-path-cov"] [] (fromStr b docs) := by
  unfold fromStr
  refine SoundAfter.bind (soundAfter_firstDocument docs) fun yaml => ?_
  refine SoundAfter.bind_later (parseGeneralSection_sound b yaml) (fun _ x hx => ?_) fun _ => ?_
  · -- `from_str` reads every section name after the general section
    simp only [sectionNames, List.map_cons, List.map_nil, List.mem_cons, List.not_mem_nil,
      or_false] at hx
    rcases hx with rfl | rfl | rfl | rfl | rfl | rfl | rfl | rfl
    all_goals repeat (first | exact Logs.bind_left (logs_read _ _) | apply Logs.bind_right; intro _)
  · refine SoundAfter.read_bind fun src => SoundAfter.requireSection_bind fun _ =>
      SoundAfter.bind (parseSourceSection_sound b src) fun _ => SoundAfter.read_bind fun ph => ?_
    refine SoundAfter.bind ?_ fun _ => SoundAfter.read_bind fun sink =>
      SoundAfter.requireSection_bind fun _ =>
      SoundAfter.bind (parseSinkSection_sound b sink (List.mem_singleton_self _)) fun _ =>
      SoundAfter.read_bind fun _ =>
      SoundAfter.bind (soundAfter_optionalSection (parseSinkCovSection_sound b)) fun _ =>
      SoundAfter.read_bind fun _ =>
      SoundAfter.bind (soundAfter_optionalSection fun _ => parseAflSection_sound b _) fun _ =>
      SoundAfter.read_bind fun _ =>
      SoundAfter.bind (soundAfter_optionalSection fun _ => parseAflSection_sound b _) fun _ =>
      SoundAfter.read_bind fun _ =>
      SoundAfter.bind (soundAfter_optionalSection (parseSgfuzzSection_sound b)) fun _ =>
      SoundAfter.read_bind fun van => SoundAfter.requireSection_bind fun _ =>
      SoundAfter.bind (parseVanillaSection_sound b van _) fun _ =>
      SoundAfter.lift_bind fun _ => soundAfter_pure _
    split
    · exact soundAfter_pure _
    · exact parsePhasesSection_sound b ph

/-- **In a successful `from_str`, every key of a mapping it checked is on that mapping's list,
and is read from it, except `bin-path-cov`.** -/
theorem fromStr_checked_keys_read (b : ConfigBuilder) (docs : List Yaml) (c : Config)
    (L : List Access) (h : fromStr b docs = .ok (c, L)) :
    ∀ y E, Access.check y E ∈ L → ∀ k, y.HasKey k →
      k ∈ E ∧ (k ≠ "bin-path-cov" → Access.read y k ∈ L) := by
  intro y E hc k ⟨entries, hy, v, hkv⟩
  obtain ⟨⟨entries', hy', hkeys⟩, hread⟩ := fromStr_sound b docs c L h y E hc
  obtain rfl : entries = entries' := Yaml.hash.inj (hy.symm.trans hy')
  obtain ⟨k', hk', hE⟩ := hkeys _ hkv
  cases Yaml.string.inj hk'
  exact ⟨hE, fun hne => by simpa using hread k hE (by simpa using hne)⟩

/-! ## A document with `bin-path-cov` -/

/-- A file system on which every path exists and is its own canonical form; every opcode names
an instruction, and the counter holds a `u32`. -/
def openWorld : World := ⟨some, fun _ => true, fun n => .ok ⟨n⟩, 2 ^ 32⟩

/-- The builder of a configuration file at the root of `openWorld`. -/
def rootBuilder : ConfigBuilder := ⟨⟨"/"⟩, openWorld⟩

def attr (k : String) (v : Yaml) : Yaml × Yaml := (.string k, v)

def programAttrs (binPath : String) : List (Yaml × Yaml) :=
  [attr "bin-path" (.string binPath), attr "arguments" (.array []),
    attr "input-type" (.string "stdin"), attr "output-type" (.string "stdout"),
    attr "log-stdout" (.boolean false), attr "log-stderr" (.boolean false)]

/-- A sink section that names a coverage binary. -/
def sinkWithCov : Yaml := .hash (programAttrs "/bin/sink" ++ [attr "bin-path-cov" (.string "/bin/cov")])

/-- The top-level attributes of a document with the required sections, around `sink`. -/
def documentAttrs (sink : Yaml) : List (Yaml × Yaml) :=
  [attr "work-directory" (.string "/work"), attr "input-directory" (.string "/input"),
    attr "source" (.hash (programAttrs "/bin/source")), attr "sink" sink,
    attr "vanilla" (.hash [attr "bin-path" (.string "/bin/vanilla")])]

theorem fromStr_checked_keys_read_sinkWithCov :
    ∃ c L, fromStr rootBuilder [.hash (documentAttrs sinkWithCov)] = .ok (c, L) ∧
      ∀ y E, Access.check y E ∈ L → ∀ k, y.HasKey k →
        k ∈ E ∧ (k ≠ "bin-path-cov" → Access.read y k ∈ L) := by
  obtain ⟨c, L, h⟩ : ∃ c L, fromStr rootBuilder [.hash (documentAttrs sinkWithCov)] = .ok (c, L) :=
    ⟨_, _, rfl⟩
  exact ⟨c, L, h, fromStr_checked_keys_read _ _ _ _ h⟩

/-- `from_str` accepts a sink section with `bin-path-cov`, which is on the sink's list, and no
parser reads it. -/
theorem sinkWithCov_bin_path_cov_unread :
    ∃ c L, fromStr rootBuilder [.hash (documentAttrs sinkWithCov)] = .ok (c, L) ∧
      Access.check sinkWithCov sinkKeys ∈ L ∧ sinkWithCov.HasKey "bin-path-cov" ∧
      Access.read sinkWithCov "bin-path-cov" ∉ L :=
  ⟨_, _, rfl, by decide, ⟨_, rfl, .string "/bin/cov", by simp [sinkWithCov, attr]⟩, by decide⟩

end FuzztructionNet.Configuration
