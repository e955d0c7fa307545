import FuzztructionNet.SinkBitmap
import FuzztructionNet.Duration
import FuzztructionNet.Fuzzer.VirginMaps
import FuzztructionNet.Fuzzer.Tracing
import FuzztructionNet.Fuzzer.Campaign
import FuzztructionNet.Fuzzer.ExecTime
import FuzztructionNet.Config.Loading
import FuzztructionNet.Fuzzer.MutationCache
import FuzztructionNet.Fuzzer.AddPhase
import FuzztructionNet.Config.Grammars
import FuzztructionNet.Config.Reorder
