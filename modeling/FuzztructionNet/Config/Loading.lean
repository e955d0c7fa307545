import FuzztructionNet.Config.Keys

/-!
# What a loaded configuration guarantees

`from_str` can panic. It does so on an empty list of documents, on a key that is not a string,
on a section that is not a mapping, and inside a converter. A configuration it accepts has its
jail uid and gid both set or both unset, so `jail_uid_gid` does not panic. It does not bound the
add-phase weights or check the shape of `netinfo`, so `weights_sum`, `transport_type` and
`dst_port` can still panic on an accepted configuration.
-/

namespace FuzztructionNet.Configuration

open Parse

/-! ## The jail -/

theorem checkJail_returns (jailUid jailGid : Option UInt32) :
    Returns (checkJail jailUid jailGid) fun _ => jailUid.isSome = jailGid.isSome :=
  fun _ _ h => (checkJail_eq_ok h).2

theorem parseGeneralSection_jail (b : ConfigBuilder) (y : Yaml) :
    Returns (parseGeneralSection b y) fun g => g.jailUid.isSome = g.jailGid.isSome := by
  unfold parseGeneralSection
  iterate 5 refine Returns.bind_right fun _ => ?_
  exact Returns.bind (checkJail_returns _ _) fun _ hj =>
    Returns.bind_right fun _ => returns_pure hj

theorem fromStr_jail (b : ConfigBuilder) (docs : List Yaml) :
    Returns (fromStr b docs) fun c => c.general.jailUid.isSome = c.general.jailGid.isSome := by
  unfold fromStr
  refine Returns.bind_right fun yaml => Returns.bind (parseGeneralSection_jail b yaml) fun g hg => ?_
  iterate 20 refine Returns.bind_right fun _ => ?_
  exact returns_pure hg

theorem GeneralConfig.jailUidGid_isSome {g : GeneralConfig}
    (h : g.jailUid.isSome = g.jailGid.isSome) : g.jailUidGid.isSome := by
  unfold GeneralConfig.jailUidGid GeneralConfig.jailEnabled
  cases hu : g.jailUid <;> cases hg : g.jailGid <;> simp_all

/-- `jail_uid_gid` does not panic on an accepted configuration. -/
theorem fromStr_jailUidGid_isSome {b : ConfigBuilder} {docs : List Yaml} {c : Config}
    {L : List Access} (h : fromStr b docs = .ok (c, L)) : c.general.jailUidGid.isSome :=
  GeneralConfig.jailUidGid_isSome (fromStr_jail b docs c L h)

def jailedDocument : Yaml :=
  .hash (documentAttrs (.hash (programAttrs "/bin/sink")) ++
    [attr "jail-uid" (.integer 1000), attr "jail-gid" (.integer 1000)])

theorem jailedDocument_jailUidGid :
    ∃ c L, fromStr rootBuilder [jailedDocument] = .ok (c, L) ∧ c.general.jailUidGid.isSome := by
  obtain ⟨c, L, h⟩ : ∃ c L, fromStr rootBuilder [jailedDocument] = .ok (c, L) := ⟨_, _, rfl⟩
  exact ⟨c, L, h, fromStr_jailUidGid_isSome h⟩

/-! ## Panics -/

def integerKeyDocument : Yaml :=
  .hash [attr "work-directory" (.string "/work"), attr "input-directory" (.string "/input"),
    (.integer 1, .null)]

def nullPhasesDocument : Yaml :=
  .hash [attr "work-directory" (.string "/work"), attr "input-directory" (.string "/input"),
    attr "source" (.hash (programAttrs "/bin/source")), attr "phases" .null]

def connectReadyDocument : Yaml :=
  .hash [attr "work-directory" (.string "/work"), attr "input-directory" (.string "/input"),
    attr "source" (.hash (programAttrs "/bin/source" ++ [attr "server-ready-on" (.string "connect")]))]

/-- `from_str` panics, for every builder: on an empty list of documents (`yaml[0]`), on an
integer key (`as_str().unwrap()` in `check_for_unparsed_keys`), on an empty `phases:`
(`as_hash().unwrap()`), and on a `server-ready-on` its regex does not match
(`captures(..).unwrap()`). -/
theorem fromStr_panics (b : ConfigBuilder) :
    fromStr b [] = .error .panic ∧ fromStr b [integerKeyDocument] = .error .panic ∧
      fromStr b [nullPhasesDocument] = .error .panic ∧
      fromStr b [connectReadyDocument] = .error .panic :=
  ⟨rfl, rfl, rfl, rfl⟩

/-! ## Accessors that still panic -/

def zeroWeightsAdd : Yaml :=
  .hash [attr "weight" (.integer 3), attr "batch-size" (.integer 12),
    attr "select-unfuzzed-weight" (.integer 0), attr "select-yielding-weight" (.integer 0),
    attr "select-random-weight" (.integer 0)]

/-- A document with zero add weights, an `afl-net` section whose `netinfo` names no protocol, and
an `sgfuzz` section whose `netinfo` has no port. -/
def unusableDocument : Yaml :=
  .hash (documentAttrs (.hash (programAttrs "/bin/sink")) ++
    [attr "phases" (.hash [attr "add" zeroWeightsAdd]),
      attr "afl-net" (.hash [attr "bin-path" (.string "/bin/afl-net"),
        attr "input-dir" (.string "/input"), attr "netinfo" (.string "file"),
        attr "protocol" (.string "HTTP")]),
      attr "sgfuzz" (.hash [attr "bin-path" (.string "/bin/sgfuzz"),
        attr "input-dir" (.string "/input"), attr "netinfo" (.string "tcp://127.0.0.1")])])

/-- `from_str` accepts `unusableDocument`, and on the configuration it returns `weights_sum`,
`AflNetConfig::transport_type` and `SGFuzzConfig::dst_port` panic. -/
theorem fromStr_accepts_unusableDocument :
    ∃ c L, fromStr rootBuilder [unusableDocument] = .ok (c, L) ∧
      c.phases.add.weightsSum = none ∧ c.aflnet.map AflNetConfig.transportType = some none ∧
      c.sgfuzz.map SGFuzzConfig.dstPort = some none :=
  ⟨_, _, rfl, by decide⟩

/-! ## Paths

The converter of `PathBuf` resolves a relative path against the builder's directory and
canonicalizes it, in every section, and `validate` checks that the input directory and the three
binaries exist.  So, where `canonicalize` returns absolute paths, every path of an accepted
configuration is absolute. -/

def GeneralConfig.paths (c : GeneralConfig) : List PathBuf := [c.inputDir, c.workDir]
def SourceConfig.paths (c : SourceConfig) : List PathBuf := c.binPath :: c.workingDir.toList
def SinkConfig.paths (c : SinkConfig) : List PathBuf := c.binPath :: c.workingDir.toList
def SinkCovConfig.paths (c : SinkCovConfig) : List PathBuf := c.binPath :: c.workingDir.toList
def VanillaConfig.paths (c : VanillaConfig) : List PathBuf := [c.binPath]
def AflNetConfig.paths (c : AflNetConfig) : List PathBuf := [c.binPath, c.inputDir]
def StateAflConfig.paths (c : StateAflConfig) : List PathBuf := [c.binPath, c.inputDir]
def SGFuzzConfig.paths (c : SGFuzzConfig) : List PathBuf := [c.binPath, c.inputDir]

def Config.paths (c : Config) : List PathBuf :=
  c.general.paths ++ c.source.paths ++ c.sink.paths ++
    ((c.sinkCov.map SinkCovConfig.paths).getD []) ++
    c.vanilla.paths ++ ((c.aflnet.map AflNetConfig.paths).getD []) ++
    ((c.stateafl.map StateAflConfig.paths).getD []) ++ ((c.sgfuzz.map SGFuzzConfig.paths).getD [])

/-- `canonicalize` returns absolute paths, as `Path::canonicalize` does. -/
def World.CanonicalAbsolute (w : World) : Prop :=
  ∀ p q, w.canonicalize p = some q → q.isRelative = false

section Paths

variable {b : ConfigBuilder}

theorem pathBuf_tryFromYaml_absolute (hcanon : b.world.CanonicalAbsolute) {y : Yaml}
    {p : PathBuf} (h : (tryFromYaml b y : Outcome PathBuf) = .ok p) : p.isRelative = false := by
  simp only [tryFromYaml, okOr] at h
  cases hs : y.asStr with
  | none => simp [hs, Option.map, bind, Except.bind] at h
  | some s =>
    simp only [hs, Option.map, bind, Except.bind] at h
    split at h
    · cases hc : b.world.canonicalize (b.baseDir.join ⟨s⟩) with
      | none => simp [hc] at h
      | some q => simp [hc] at h; exact h ▸ hcanon _ _ hc
    · next hr => cases h; simpa using hr

theorem option_tryFromYaml_some [TryFromYaml α] {y : Yaml} {a : α}
    (h : (tryFromYaml b y : Outcome (Option α)) = .ok (some a)) :
    (tryFromYaml b y : Outcome α) = .ok a := by
  revert h
  show (if y.isBadValue || y.isNull then pure none
    else if (match (tryFromYaml b y : Outcome String) with
        | .ok s => toLowercase s == "none"
        | .error _ => false) then pure none
    else some <$> tryFromYaml b y) = .ok (some a) → _
  split_ifs
  · intro h; cases h
  · intro h; cases h
  · cases (tryFromYaml b y : Outcome α) <;> intro h <;> cases h
    rfl

theorem getAttribute_returns [TryFromYaml α] {y : Yaml} {k : String} {P : α → Prop}
    (h : ∀ v a, (tryFromYaml b v : Outcome α) = .ok a → P a) : Returns (getAttribute b y k) P := by
  intro a l hp
  obtain ⟨v, l₁, l₂, -, h₂, -⟩ := bind_eq_ok.mp hp
  exact h v a (withContext_eq_ok.mp (lift_eq_ok.mp h₂).1)

theorem getAttribute_path (hcanon : b.world.CanonicalAbsolute) {y : Yaml} {k : String} :
    Returns (getAttribute b y k : Parse PathBuf) fun p => p.isRelative = false :=
  getAttribute_returns fun _ _ => pathBuf_tryFromYaml_absolute hcanon

theorem getAttribute_optionPath (hcanon : b.world.CanonicalAbsolute) {y : Yaml} {k : String} :
    Returns (getAttribute b y k : Parse (Option PathBuf)) fun o => ∀ p ∈ o, p.isRelative = false :=
  getAttribute_returns fun _ _ h p hp => by
    cases hp
    exact pathBuf_tryFromYaml_absolute hcanon (option_tryFromYaml_some h)

theorem parseGeneralSection_paths (hcanon : b.world.CanonicalAbsolute) (y : Yaml) :
    Returns (parseGeneralSection b y) fun c => ∀ p ∈ c.paths, p.isRelative = false := by
  unfold parseGeneralSection
  refine Returns.bind (getAttribute_path hcanon) fun wd hwd => ?_
  refine Returns.bind (getAttribute_path hcanon) fun id hid => ?_
  iterate 5 refine Returns.bind_right fun _ => ?_
  exact returns_pure (by simp [GeneralConfig.paths, hwd, hid])

theorem parseSourceSection_paths (hcanon : b.world.CanonicalAbsolute) (y : Yaml) :
    Returns (parseSourceSection b y) fun c => ∀ p ∈ c.paths, p.isRelative = false := by
  unfold parseSourceSection
  refine Returns.bind_right fun _ => Returns.bind (getAttribute_path hcanon) fun bp hbp => ?_
  iterate 12 refine Returns.bind_right fun _ => ?_
  refine Returns.bind (getAttribute_optionPath hcanon) fun wd hwd => ?_
  exact Returns.bind_right fun _ => returns_pure (by simpa [SourceConfig.paths, hbp] using hwd)

theorem parseSinkSection_paths (hcanon : b.world.CanonicalAbsolute) (y : Yaml) :
    Returns (parseSinkSection b y) fun c => ∀ p ∈ c.paths, p.isRelative = false := by
  unfold parseSinkSection
  refine Returns.bind_right fun _ => Returns.bind (getAttribute_path hcanon) fun bp hbp => ?_
  iterate 9 refine Returns.bind_right fun _ => ?_
  refine Returns.bind (getAttribute_optionPath hcanon) fun wd hwd => ?_
  iterate 2 refine Returns.bind_right fun _ => ?_
  exact returns_pure (by simpa [SinkConfig.paths, hbp] using hwd)

theorem parseSinkCovSection_paths (hcanon : b.world.CanonicalAbsolute) (y : Yaml) :
    Returns (parseSinkCovSection b y) fun c => ∀ p ∈ c.paths, p.isRelative = false := by
  unfold parseSinkCovSection
  refine Returns.bind_right fun _ => Returns.bind (getAttribute_path hcanon) fun bp hbp => ?_
  refine Returns.bind (getAttribute_optionPath hcanon) fun wd hwd => ?_
  exact Returns.bind_right fun _ => returns_pure (by simpa [SinkCovConfig.paths, hbp] using hwd)

theorem parseVanillaSection_paths (hcanon : b.world.CanonicalAbsolute) (y : Yaml)
    (arguments : List String) :
    Returns (parseVanillaSection b y arguments) fun c => ∀ p ∈ c.paths, p.isRelative = false := by
  unfold parseVanillaSection
  refine Returns.bind_right fun _ => Returns.bind (getAttribute_path hcanon) fun bp hbp => ?_
  exact Returns.bind_right fun _ => returns_pure (by simpa [VanillaConfig.paths] using hbp)

theorem parseAflSection_returns (hcanon : b.world.CanonicalAbsolute) (y : Yaml)
    {mk : PathBuf → List (String × String) → PathBuf → String → String → Bool → Bool → γ}
    {Q : γ → Prop} (hmk : ∀ bp env ip netinfo protocol sendSigterm aware, bp.isRelative = false →
      ip.isRelative = false → Q (mk bp env ip netinfo protocol sendSigterm aware)) :
    Returns (parseAflSection mk b y) Q := by
  unfold parseAflSection
  refine Returns.bind (getAttribute_path hcanon) fun bp hbp => Returns.bind_right fun _ => ?_
  refine Returns.bind (getAttribute_path hcanon) fun ip hip => ?_
  iterate 5 refine Returns.bind_right fun _ => ?_
  exact returns_pure (hmk _ _ _ _ _ _ _ hbp hip)

theorem parseSgfuzzSection_paths (hcanon : b.world.CanonicalAbsolute) (y : Yaml) :
    Returns (parseSgfuzzSection b y) fun c => ∀ p ∈ c.paths, p.isRelative = false := by
  unfold parseSgfuzzSection
  refine Returns.bind (getAttribute_path hcanon) fun bp hbp => ?_
  iterate 2 refine Returns.bind_right fun _ => ?_
  refine Returns.bind (getAttribute_path hcanon) fun ip hip => ?_
  iterate 2 refine Returns.bind_right fun _ => ?_
  exact returns_pure (by simp [SGFuzzConfig.paths, hbp, hip])

theorem optionalSection_returns {s : Yaml} {parse : Yaml → Parse α} {Q : α → Prop}
    (h : Returns (parse s) Q) : Returns (optionalSection s parse) fun o => ∀ x ∈ o, Q x := by
  unfold optionalSection
  split
  · exact returns_pure (by simp)
  · exact Returns.bind h fun a ha => returns_pure (by simpa using ha)

theorem withContext_bind_eq_ok {msg : String} {r : Outcome Unit} {f : Unit → Outcome β} {x : β}
    (h : (withContext msg r >>= f) = .ok x) : r = .ok () ∧ f () = .ok x := by
  rcases r with (_ | _) | ⟨⟩
  · cases h
  · cases h
  · exact ⟨rfl, h⟩

theorem pathExists_eq_ok {w : World} {p : PathBuf} {u : Unit} (h : pathExists w p = .ok u) :
    w.pathExists p := by
  unfold pathExists at h
  split at h
  · assumption
  · cases h

theorem validateBinPath_eq_ok {w : World} {p : PathBuf} {u : Unit}
    (h : validateBinPath w p = .ok u) : w.pathExists p :=
  pathExists_eq_ok (withContext_eq_ok.1 h)

theorem Config.validate_eq_ok {w : World} {c : Config} {u : Unit} (h : c.validate w = .ok u) :
    w.pathExists c.general.inputDir ∧ w.pathExists c.source.binPath ∧
      w.pathExists c.sink.binPath ∧ w.pathExists c.vanilla.binPath := by
  obtain ⟨h₁, h⟩ := withContext_bind_eq_ok h
  obtain ⟨h₂, h⟩ := withContext_bind_eq_ok h
  obtain ⟨h₃, h₄⟩ := withContext_bind_eq_ok h
  exact ⟨pathExists_eq_ok (withContext_eq_ok.1 h₁), validateBinPath_eq_ok h₂,
    validateBinPath_eq_ok h₃, validateBinPath_eq_ok (withContext_eq_ok.1 h₄)⟩

theorem forall_mem_getD_map {o : Option α} {f : α → List PathBuf} {P : PathBuf → Prop}
    (h : ∀ x ∈ o, ∀ p ∈ f x, P p) : ∀ p ∈ (o.map f).getD [], P p := by
  cases o <;> simp_all

/-- **Every path of a configuration `from_str` accepts is absolute, and the paths `validate`
checks exist**, for a file system whose `canonicalize` returns absolute paths: relative paths
are resolved against the builder's directory and canonicalized, in every section. -/
theorem fromStr_paths {docs : List Yaml} {c : Config} {L : List Access}
    (hcanon : b.world.CanonicalAbsolute) (h : fromStr b docs = .ok (c, L)) :
    (∀ p ∈ c.paths, p.isRelative = false) ∧ b.world.pathExists c.general.inputDir ∧
      b.world.pathExists c.source.binPath ∧ b.world.pathExists c.sink.binPath ∧
      b.world.pathExists c.vanilla.binPath := by
  revert c L h
  show Returns (fromStr b docs) _
  unfold fromStr
  refine Returns.bind_right fun yaml => ?_
  refine Returns.bind (parseGeneralSection_paths hcanon yaml) fun general hg => ?_
  iterate 2 refine Returns.bind_right fun _ => ?_
  refine Returns.bind (parseSourceSection_paths hcanon _) fun source hs => ?_
  iterate 4 refine Returns.bind_right fun _ => ?_
  refine Returns.bind (parseSinkSection_paths hcanon _) fun sink hk => ?_
  refine Returns.bind_right fun _ => ?_
  refine Returns.bind (optionalSection_returns (parseSinkCovSection_paths hcanon _))
    fun sinkCov hsc => Returns.bind_right fun _ => ?_
  refine Returns.bind (optionalSection_returns (parseAflSection_returns hcanon _
    (Q := fun c : AflNetConfig => ∀ p ∈ c.paths, p.isRelative = false)
    fun _ _ _ _ _ _ _ hbp hip => by simp [AflNetConfig.paths, hbp, hip]))
    fun aflnet ha => Returns.bind_right fun _ => ?_
  refine Returns.bind (optionalSection_returns (parseAflSection_returns hcanon _
    (Q := fun c : StateAflConfig => ∀ p ∈ c.paths, p.isRelative = false)
    fun _ _ _ _ _ _ _ hbp hip => by simp [StateAflConfig.paths, hbp, hip]))
    fun stateafl hst => Returns.bind_right fun _ => ?_
  refine Returns.bind (optionalSection_returns (parseSgfuzzSection_paths hcanon _))
    fun sgfuzz hsg => ?_
  iterate 2 refine Returns.bind_right fun _ => ?_
  refine Returns.bind (parseVanillaSection_paths hcanon _ _) fun vanilla hv => ?_
  refine Returns.bind (fun u l hl => Config.validate_eq_ok (lift_eq_ok.1 hl).1) fun _ hval => ?_
  refine returns_pure ⟨?_, hval⟩
  simp only [Config.paths, List.forall_mem_append]
  exact ⟨⟨⟨⟨⟨⟨⟨hg, hs⟩, hk⟩, forall_mem_getD_map hsc⟩, hv⟩, forall_mem_getD_map ha⟩,
    forall_mem_getD_map hst⟩, forall_mem_getD_map hsg⟩

end Paths

/-- A file system where every path exists and `canonicalize` keeps absolute paths and fails on
relative ones. -/
def canonicalWorld : World :=
  { openWorld with canonicalize := fun p => if p.isRelative then none else some p }

theorem sinkWithCov_paths :
    canonicalWorld.CanonicalAbsolute ∧
      ∃ c L, fromStr ⟨⟨"/"⟩, canonicalWorld⟩ [.hash (documentAttrs sinkWithCov)] = .ok (c, L) ∧
        (∀ p ∈ c.paths, p.isRelative = false) ∧ canonicalWorld.pathExists c.general.inputDir ∧
        canonicalWorld.pathExists c.source.binPath ∧ canonicalWorld.pathExists c.sink.binPath ∧
        canonicalWorld.pathExists c.vanilla.binPath := by
  have hcanon : canonicalWorld.CanonicalAbsolute := fun p q h => by
    simp only [canonicalWorld] at h
    split at h
    · cases h
    · next hp => cases h; simpa using hp
  obtain ⟨c, L, h⟩ : ∃ c L,
      fromStr ⟨⟨"/"⟩, canonicalWorld⟩ [.hash (documentAttrs sinkWithCov)] = .ok (c, L) :=
    ⟨_, _, rfl⟩
  exact ⟨hcanon, c, L, h, fromStr_paths hcanon h⟩

end FuzztructionNet.Configuration
