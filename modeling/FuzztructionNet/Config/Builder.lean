import FuzztructionNet.Config.Parse
import FuzztructionNet.Config.Types

/-!
# `ConfigBuilder`: the section parsers and `from_str`

`from_str` takes the list of documents `YamlLoader::load_from_str` returned, indexes it at `0`,
and hands the top-level mapping and its sections to the `parse_*` functions. Each parser reads
its attributes through `get_attribute`, then checks the mapping's keys against its own list.
Last, `validate` checks that the configured paths exist.
-/

namespace FuzztructionNet.Configuration

open Parse

def getAttribute [TryFromYaml α] (b : ConfigBuilder) (yaml : Yaml) (attrName : String) :
    Parse α := do
  let val ← read yaml attrName
  lift (withContext ("Failed to convert attribute \"" ++ attrName ++ "\" to the requested type.")
    (tryFromYaml b val))

def getOptionalSection (b : ConfigBuilder) (yml : Yaml) (name : String) : Parse (Option Yaml) := do
  let s : Option (List (Yaml × Yaml)) ← getAttribute b yml name
  pure (s.map Yaml.hash)

/-- `ConfigBuilder::check_for_unparsed_keys`. It panics on a value that is not a hash and on a
key that is not a string. The keys go into a `HashSet`, whose order the code does not fix; the
model takes them in document order, and no theorem here depends on which unexpected key is
reported. -/
def checkForUnparsedKeys (yaml : Yaml) (expected : List String) : Parse Unit :=
  match yaml.asHash with
  | none => Except.error .panic
  | some entries =>
    match entries.mapM (fun e => e.1.asStr) with
    | none => Except.error .panic
    | some keys =>
      match keys.find? (fun k => !expected.contains k) with
      | some k => fail (.config (.unexpectedAttribute k))
      | none => Except.ok ((), [.check yaml expected])

/-! ## The sections -/

def generalKeys : List String :=
  ["work-directory", "input-directory", "jail-uid", "jail-gid", "jail-drop-to-sudo-callee",
    "sink", "sink-cov", "source", "afl-net", "state-afl", "sgfuzz", "vanilla", "phases"]

/-- The `match (jail_uid, jail_gid)` of `parse_general_section`. -/
def checkJail (jailUid jailGid : Option UInt32) : Parse Unit :=
  match jailUid, jailGid with
  | some _, some _ => pure ()
  | none, none => pure ()
  | _, _ => fail (.message "Both or non of jail_uid and jail_gid must be set")

def parseGeneralSection (b : ConfigBuilder) (yaml : Yaml) : Parse GeneralConfig := do
  let workDir : PathBuf ← getAttribute b yaml "work-directory"
  let inputDir : PathBuf ← getAttribute b yaml "input-directory"
  let jailUid : Option UInt32 ← getAttribute b yaml "jail-uid"
  let jailGid : Option UInt32 ← getAttribute b yaml "jail-gid"
  let jailDropToSudoCallee : Option Bool ← getAttribute b yaml "jail-drop-to-sudo-callee"
  checkJail jailUid jailGid
  checkForUnparsedKeys yaml generalKeys
  pure ⟨inputDir, workDir, Duration.fromSecs 300 (by decide), jailUid, jailGid,
    jailDropToSudoCallee.getD true⟩

def sourceKeys : List String :=
  ["env", "bin-path", "arguments", "input-type", "output-type", "output-suffix", "log-stdout",
    "log-stderr", "is-server", "server-port", "server-ready-on", "allowed-patch-points",
    "max-patch-points", "blocked-patch-point-instructions", "working-dir"]

def parseSourceSection (b : ConfigBuilder) (yaml : Yaml) : Parse SourceConfig := do
  let env : Option (List (String × String)) ← getAttribute b yaml "env"
  let binPath : PathBuf ← getAttribute b yaml "bin-path"
  let arguments : List String ← getAttribute b yaml "arguments"
  let inputType : InputChannel ← getAttribute b yaml "input-type"
  let outputType : OutputChannel ← getAttribute b yaml "output-type"
  let outputSuffix : Option String ← getAttribute b yaml "output-suffix"
  let logStdout : Bool ← getAttribute b yaml "log-stdout"
  let logStderr : Bool ← getAttribute b yaml "log-stderr"
  let isServer : Option Bool ← getAttribute b yaml "is-server"
  let serverPort : Option String ← getAttribute b yaml "server-port"
  let serverReadyOn : Option ServerReadySignalKind ← getAttribute b yaml "server-ready-on"
  let allowedPatchPoints : Option (List MutationSiteID) ← getAttribute b yaml "allowed-patch-points"
  let maxPatchPoints : Option Int ← getAttribute b yaml "max-patch-points"
  let blockedPatchpointInstructions : Option (List LLVMInstruction) ←
    getAttribute b yaml "blocked-patch-point-instructions"
  let workingDir : Option PathBuf ← getAttribute b yaml "working-dir"
  checkForUnparsedKeys yaml sourceKeys
  pure ⟨env.getD [], binPath, arguments, inputType, outputType, outputSuffix, logStdout, logStderr,
    isServer, serverPort, serverReadyOn, allowedPatchPoints, maxPatchPoints,
    blockedPatchpointInstructions, workingDir⟩

def discoveryKeys : List String :=
  ["enabled", "batch-size", "terminate-when-finished", "batch-cov-timeout", "phase-cov-timeout"]

def parseDiscoveryPhaseSection (b : ConfigBuilder) (s : Yaml) : Parse DiscoveryPhaseConfig := do
  let enabled : Bool ← getAttribute b s "enabled"
  let batchSize : UInt32 ← getAttribute b s "batch-size"
  let terminateWhenFinished : Bool ← getAttribute b s "terminate-when-finished"
  let batchCovTimeout : Option Duration ← getAttribute b s "batch-cov-timeout"
  let phaseCovTimeout : Option Duration ← getAttribute b s "phase-cov-timeout"
  checkForUnparsedKeys s discoveryKeys
  pure ⟨enabled, batchSize, terminateWhenFinished,
    batchCovTimeout.getD (Duration.fromSecs (60 * 5) (by decide)),
    phaseCovTimeout.getD (Duration.fromSecs (60 * 10) (by decide))⟩

def weightKeys : List String := ["weight", "entry-cov-timeout"]

def parseMutatePhaseSection (b : ConfigBuilder) (s : Yaml) : Parse MutatePhaseConfig := do
  let weight : UInt32 ← getAttribute b s "weight"
  let entryCovTimeout : Option Duration ← getAttribute b s "entry-cov-timeout"
  checkForUnparsedKeys s weightKeys
  pure ⟨weight, entryCovTimeout.getD (Duration.fromSecs (60 * 10) (by decide))⟩

def addKeys : List String :=
  ["weight", "batch-size", "select-unfuzzed-weight", "select-yielding-weight",
    "select-random-weight", "entry-cov-timeout"]

def parseAddPhaseSection (b : ConfigBuilder) (s : Yaml) : Parse AddPhaseConfig := do
  let weight : UInt32 ← getAttribute b s "weight"
  let batchSize : UInt32 ← getAttribute b s "batch-size"
  let selectUnfuzzedWeight : UInt32 ← getAttribute b s "select-unfuzzed-weight"
  let selectYieldingWeight : UInt32 ← getAttribute b s "select-yielding-weight"
  let selectRandomWeight : UInt32 ← getAttribute b s "select-random-weight"
  let entryCovTimeout : Option Duration ← getAttribute b s "entry-cov-timeout"
  checkForUnparsedKeys s addKeys
  pure ⟨weight, batchSize, selectUnfuzzedWeight, selectYieldingWeight, selectRandomWeight,
    entryCovTimeout.getD (Duration.fromSecs (60 * 10) (by decide))⟩

def parseCombinePhaseSection (b : ConfigBuilder) (s : Yaml) : Parse CombinePhaseConfig := do
  let weight : UInt32 ← getAttribute b s "weight"
  let entryCovTimeout : Option Duration ← getAttribute b s "entry-cov-timeout"
  checkForUnparsedKeys s weightKeys
  pure ⟨weight, entryCovTimeout.getD (Duration.fromSecs (60 * 30) (by decide))⟩

def phasesKeys : List String := ["generation-ceiling", "discovery", "mutate", "add", "combine"]

def parsePhasesSection (b : ConfigBuilder) (phasesSection : Yaml) : Parse PhasesConfig := do
  let generationCeiling : Option UInt32 ← getAttribute b phasesSection "generation-ceiling"
  let discovery ← (← getOptionalSection b phasesSection "discovery").elim
    (pure .default) fun s =>
      withContext "Failed to parse discovery section" (parseDiscoveryPhaseSection b s)
  let mutate ← (← getOptionalSection b phasesSection "mutate").elim
    (pure .default) fun s =>
      withContext "Failed to parse mutate section" (parseMutatePhaseSection b s)
  let add ← (← getOptionalSection b phasesSection "add").elim
    (pure .default) fun s => withContext "Failed to parse add section" (parseAddPhaseSection b s)
  let combine ← (← getOptionalSection b phasesSection "combine").elim
    (pure .default) fun s =>
      withContext "Failed to parse combine section" (parseCombinePhaseSection b s)
  checkForUnparsedKeys phasesSection phasesKeys
  pure ⟨generationCeiling, discovery, mutate, add, combine⟩

def aflKeys : List String :=
  ["bin-path", "env", "input-dir", "netinfo", "protocol", "send-sigterm",
    "enable-state-aware-mode"]

/-- The common body of `parse_afl_net_section` and `parse_state_afl_section`, which differ only in
the record they build: `mk` takes the attributes in the order they are read. -/
def parseAflSection (mk : PathBuf → List (String × String) → PathBuf → String → String → Bool →
    Bool → γ) (b : ConfigBuilder) (yaml : Yaml) : Parse γ := do
  let binPath : PathBuf ← getAttribute b yaml "bin-path"
  let env : Option (List (String × String)) ← getAttribute b yaml "env"
  let inputDir : PathBuf ← getAttribute b yaml "input-dir"
  let netinfo : String ← getAttribute b yaml "netinfo"
  let protocol : String ← getAttribute b yaml "protocol"
  let sendSigterm : Option Bool ← getAttribute b yaml "send-sigterm"
  let enableStateAwareMode : Option Bool ← getAttribute b yaml "enable-state-aware-mode"
  checkForUnparsedKeys yaml aflKeys
  pure (mk binPath (env.getD []) inputDir netinfo protocol (sendSigterm.getD false)
    (enableStateAwareMode.getD true))

def parseAflNetSection (b : ConfigBuilder) (yaml : Yaml) : Parse AflNetConfig :=
  parseAflSection (fun binPath env inputDir netinfo protocol sendSigterm aware =>
    ⟨env, binPath, inputDir, protocol, netinfo, sendSigterm, aware⟩) b yaml

def parseStateAflSection (b : ConfigBuilder) (yaml : Yaml) : Parse StateAflConfig :=
  parseAflSection (fun binPath env inputDir netinfo protocol sendSigterm aware =>
    ⟨binPath, env, inputDir, protocol, netinfo, sendSigterm, aware⟩) b yaml

def sgfuzzKeys : List String := ["bin-path", "env", "input-dir", "netinfo", "arguments"]

def parseSgfuzzSection (b : ConfigBuilder) (yaml : Yaml) : Parse SGFuzzConfig := do
  let binPath : PathBuf ← getAttribute b yaml "bin-path"
  let arguments : Option (List String) ← getAttribute b yaml "arguments"
  let env : Option (List (String × String)) ← getAttribute b yaml "env"
  let inputDir : PathBuf ← getAttribute b yaml "input-dir"
  let netinfo : String ← getAttribute b yaml "netinfo"
  checkForUnparsedKeys yaml sgfuzzKeys
  pure ⟨binPath, env.getD [], arguments, inputDir, netinfo⟩

def sinkKeys : List String :=
  ["env", "bin-path", "bin-path-cov", "arguments", "input-type", "output-type", "log-stdout",
    "log-stderr", "allow-unstable-sink", "is-server", "server-port", "server-ready-on",
    "working-dir", "send-sigterm"]

def parseSinkSection (b : ConfigBuilder) (yaml : Yaml) : Parse SinkConfig := do
  let env : Option (List (String × String)) ← getAttribute b yaml "env"
  let binPath : PathBuf ← getAttribute b yaml "bin-path"
  let arguments : List String ← getAttribute b yaml "arguments"
  let inputType : InputChannel ← getAttribute b yaml "input-type"
  let outputType : OutputChannel ← getAttribute b yaml "output-type"
  let logStdout : Bool ← getAttribute b yaml "log-stdout"
  let logStderr : Bool ← getAttribute b yaml "log-stderr"
  let allowUnstableSink : Option Bool ← getAttribute b yaml "allow-unstable-sink"
  let isServer : Option Bool ← getAttribute b yaml "is-server"
  let serverPort : Option String ← getAttribute b yaml "server-port"
  let serverReadyOn : Option ServerReadySignalKind ← getAttribute b yaml "server-ready-on"
  let workingDir : Option PathBuf ← getAttribute b yaml "working-dir"
  let sendSigterm : Option Bool ← getAttribute b yaml "send-sigterm"
  withContext "Sink" (checkForUnparsedKeys yaml sinkKeys)
  pure ⟨binPath, arguments, env.getD [], inputType, outputType, logStdout, logStderr,
    allowUnstableSink.getD true, isServer, serverPort, serverReadyOn, workingDir,
    sendSigterm.getD false⟩

def sinkCovKeys : List String := ["env", "bin-path", "working-dir"]

def parseSinkCovSection (b : ConfigBuilder) (yaml : Yaml) : Parse SinkCovConfig := do
  let env : Option (List (String × String)) ← getAttribute b yaml "env"
  let binPath : PathBuf ← getAttribute b yaml "bin-path"
  let workingDir : Option PathBuf ← getAttribute b yaml "working-dir"
  checkForUnparsedKeys yaml sinkCovKeys
  pure ⟨binPath, env.getD [], workingDir⟩

def vanillaKeys : List String := ["env", "bin-path"]

def parseVanillaSection (b : ConfigBuilder) (yaml : Yaml) (arguments : List String) :
    Parse VanillaConfig := do
  let env : Option (List (String × String)) ← getAttribute b yaml "env"
  let binPath : PathBuf ← getAttribute b yaml "bin-path"
  checkForUnparsedKeys yaml vanillaKeys
  pure ⟨env.getD [], binPath, arguments⟩

/-! ## Validation -/

def pathExists (w : World) (p : PathBuf) : Outcome Unit :=
  if w.pathExists p then pure ()
  else .error (.err (.message ("Path '" ++ p.path ++ "' does not exist (or wrong permissions)")))

/-- The `Validator` of `SourceConfig`, `SinkConfig` and `VanillaConfig`: the binary exists. -/
def validateBinPath (w : World) (binPath : PathBuf) : Outcome Unit :=
  withContext "Failed to validate bin_path" (pathExists w binPath)

def Config.validate (w : World) (c : Config) : Outcome Unit := do
  withContext "Failed to validate GeneralConfig"
    (withContext "Failed to validate input_dir" (pathExists w c.general.inputDir))
  withContext "Failed to validate SourceConfig" (validateBinPath w c.source.binPath)
  withContext "Failed to validate SinkConfig" (validateBinPath w c.sink.binPath)
  withContext "Failed to validate VanillaConfig" (validateBinPath w c.vanilla.binPath)

/-! ## `from_str` -/

/-- `yaml[0]` on the loaded documents: an index out of range panics. -/
def firstDocument : List Yaml → Parse Yaml
  | [] => Except.error .panic
  | yaml :: _ => pure yaml

/-- The `is_badvalue` check of a required section. -/
def requireSection (name : String) (s : Yaml) : Parse Unit :=
  if s.isBadValue then fail (.config (.missingSection name)) else pure ()

/-- An optional section: parsed unless it is missing. -/
def optionalSection (s : Yaml) (parse : Yaml → Parse α) : Parse (Option α) :=
  if s.isBadValue then pure none else do
    let c ← parse s
    pure (some c)

/-- `ConfigBuilder::from_str`, on the documents the loader returned. -/
def fromStr (b : ConfigBuilder) (docs : List Yaml) : Parse Config := do
  let yaml ← firstDocument docs
  let general ← parseGeneralSection b yaml
  let sourceSection ← read yaml "source"
  requireSection "source" sourceSection
  let source ← parseSourceSection b sourceSection
  let phasesSection ← read yaml "phases"
  let phases ← (if phasesSection.isBadValue then pure .default
    else parsePhasesSection b phasesSection)
  let sinkSection ← read yaml "sink"
  requireSection "sink" sinkSection
  let sink ← parseSinkSection b sinkSection
  let sinkCov ← optionalSection (← read yaml "sink-cov") (parseSinkCovSection b)
  let aflnet ← optionalSection (← read yaml "afl-net") (parseAflNetSection b)
  let stateafl ← optionalSection (← read yaml "state-afl") (parseStateAflSection b)
  let sgfuzz ← optionalSection (← read yaml "sgfuzz") (parseSgfuzzSection b)
  let vanillaSection ← read yaml "vanilla"
  requireSection "vanilla" vanillaSection
  let vanilla ← parseVanillaSection b vanillaSection sink.arguments
  let config : Config := ⟨general, source, phases, sink, sinkCov, vanilla, aflnet, stateafl, sgfuzz⟩
  lift (config.validate b.world)
  pure config

end FuzztructionNet.Configuration
