import FuzztructionNet.Config.Convert

/-!
# The configuration records

The sections of `Config` with their `Default`s, and the accessors that unwrap or assert what
the loader is meant to have established: `weights_sum`, `transport_type`, `dst_port` and
`jail_uid_gid`. Each accessor gives `none` where the code panics.
-/

namespace FuzztructionNet.Configuration

structure GeneralConfig where
  inputDir : PathBuf
  workDir : PathBuf
  tracingTimeout : Duration
  jailUid : Option UInt32
  jailGid : Option UInt32
  jailDropToSudoCallee : Bool

namespace GeneralConfig

def jailEnabled (c : GeneralConfig) : Bool := c.jailUid.isSome

/-- `GeneralConfig::jail_uid_gid`: `none` where one of its `unwrap`s panics. -/
def jailUidGid (c : GeneralConfig) : Option (Option (UInt32 × UInt32)) :=
  if c.jailEnabled then (c.jailUid.bind fun uid => c.jailGid.map fun gid => some (uid, gid))
  else some none

end GeneralConfig

structure SourceConfig where
  env : List (String × String)
  binPath : PathBuf
  arguments : List String
  inputType : InputChannel
  outputType : OutputChannel
  outputSuffix : Option String
  logStdout : Bool
  logStderr : Bool
  isServer : Option Bool
  serverPort : Option String
  serverReadyOn : Option ServerReadySignalKind
  allowedPatchPoints : Option (List MutationSiteID)
  maxPatchPoints : Option Int
  blockedPatchpointInstructions : Option (List LLVMInstruction)
  workingDir : Option PathBuf

structure DiscoveryPhaseConfig where
  enabled : Bool
  batchSize : UInt32
  terminateWhenFinished : Bool
  batchCovTimeout : Duration
  phaseCovTimeout : Duration

def DiscoveryPhaseConfig.default : DiscoveryPhaseConfig :=
  ⟨true, 50, false, Duration.fromSecs (60 * 10) (by decide), Duration.fromSecs (60 * 20) (by decide)⟩

structure MutatePhaseConfig where
  weight : UInt32
  entryCovTimeout : Duration

def MutatePhaseConfig.default : MutatePhaseConfig := ⟨40, Duration.fromSecs (60 * 15) (by decide)⟩

structure AddPhaseConfig where
  weight : UInt32
  batchSize : UInt32
  selectUnfuzzedWeight : UInt32
  selectYieldingWeight : UInt32
  selectRandomWeight : UInt32
  entryCovTimeout : Duration

def AddPhaseConfig.default : AddPhaseConfig := ⟨3, 12, 1, 1, 1, Duration.fromSecs (60 * 15) (by decide)⟩

/-- `AddPhaseConfig::weights_sum`: `none` where it panics, on the `assert!(ret > 0)` or on an
overflow of the `u32` additions (a debug build's check; the running sum only grows, so one of
them overflows exactly when the whole sum does). -/
def AddPhaseConfig.weightsSum (c : AddPhaseConfig) : Option UInt32 :=
  let ret := 0 + c.selectUnfuzzedWeight.toNat + c.selectYieldingWeight.toNat +
    c.selectRandomWeight.toNat
  if ret < 2 ^ 32 ∧ 0 < ret then some (UInt32.ofNat ret) else none

structure CombinePhaseConfig where
  weight : UInt32
  entryCovTimeout : Duration

def CombinePhaseConfig.default : CombinePhaseConfig := ⟨10, Duration.fromSecs (60 * 10) (by decide)⟩

structure PhasesConfig where
  generationCeiling : Option UInt32
  discovery : DiscoveryPhaseConfig
  mutate : MutatePhaseConfig
  add : AddPhaseConfig
  combine : CombinePhaseConfig

def PhasesConfig.default : PhasesConfig :=
  ⟨none, .default, .default, .default, .default⟩

structure SinkConfig where
  binPath : PathBuf
  arguments : List String
  env : List (String × String)
  inputType : InputChannel
  outputType : OutputChannel
  logStdout : Bool
  logStderr : Bool
  allowUnstableSink : Bool
  isServer : Option Bool
  serverPort : Option String
  serverReadyOn : Option ServerReadySignalKind
  workingDir : Option PathBuf
  sendSigterm : Bool

structure SinkCovConfig where
  binPath : PathBuf
  env : List (String × String)
  workingDir : Option PathBuf

inductive TransportType
  | tcp | udp
  deriving DecidableEq

/-- The `transport_type` of `AflNetConfig` and `SGFuzzConfig`: the prefix of the lowercased
`netinfo`; `none` where the code panics on an unknown protocol. -/
def netinfoTransportType (netinfo : String) : Option TransportType :=
  if startsWith (toLowercase netinfo) "tcp" then some .tcp
  else if startsWith (toLowercase netinfo) "udp" then some .udp
  else none

structure AflNetConfig where
  env : List (String × String)
  binPath : PathBuf
  inputDir : PathBuf
  protocol : String
  netinfo : String
  sendSigterm : Bool
  enableStateAwareMode : Bool

def AflNetConfig.transportType (c : AflNetConfig) : Option TransportType :=
  netinfoTransportType c.netinfo

structure SGFuzzConfig where
  binPath : PathBuf
  env : List (String × String)
  args : Option (List String)
  inputDir : PathBuf
  netinfo : String

namespace SGFuzzConfig

/-- `SGFuzzConfig::dst_port`: the `u16` after the last `/` of `netinfo`, the last piece of
`split('/')`, which always has one; `none` where its `parse().unwrap()` panics. -/
def dstPort (c : SGFuzzConfig) : Option UInt16 :=
  (parseUnsigned (2 ^ 16) ⟨(c.netinfo.toList.reverse.takeWhile (· ≠ '/')).reverse⟩).map UInt16.ofNat

def transportType (c : SGFuzzConfig) : Option TransportType := netinfoTransportType c.netinfo

end SGFuzzConfig

structure StateAflConfig where
  binPath : PathBuf
  env : List (String × String)
  inputDir : PathBuf
  protocol : String
  netinfo : String
  sendSigterm : Bool
  enableStateAwareMode : Bool

structure VanillaConfig where
  env : List (String × String)
  binPath : PathBuf
  arguments : List String

structure Config where
  general : GeneralConfig
  source : SourceConfig
  phases : PhasesConfig
  sink : SinkConfig
  sinkCov : Option SinkCovConfig
  vanilla : VanillaConfig
  aflnet : Option AflNetConfig
  stateafl : Option StateAflConfig
  sgfuzz : Option SGFuzzConfig

end FuzztructionNet.Configuration
