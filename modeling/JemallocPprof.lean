import JemallocPprof.Lib.Loop
import JemallocPprof.Lib.Runs
import JemallocPprof.Lib.While
import JemallocPprof.Lib.Checks
import JemallocPprof.Lib.Memory
import JemallocPprof.Lib.Firsts
import JemallocPprof.Lib.Paired
import JemallocPprof.Lib.Numbered
import JemallocPprof.Lib.Totals
import JemallocPprof.Lib.Utf8
import JemallocPprof.Lib.ExtNum
import JemallocPprof.Lib.IntType
import JemallocPprof.Lib.Binary64
import JemallocPprof.Lib.Numeral
import JemallocPprof.Lib.Text
import JemallocPprof.Lib.Wire
import JemallocPprof.Lib.Threads
import JemallocPprof.Lib.Lock
import JemallocPprof.Lib.Files
import JemallocPprof.Runtime
import JemallocPprof.Control
import JemallocPprof.Cast
import JemallocPprof.Double
import JemallocPprof.Proto
import JemallocPprof.Wire
import JemallocPprof.StringTable
import JemallocPprof.StackProfile
import JemallocPprof.SharedObject
import JemallocPprof.ProgramHeaders
import JemallocPprof.Notes
import JemallocPprof.Pprof
import JemallocPprof.Flamegraph
import JemallocPprof.Jeheap
import JemallocPprof.Dumping
import JemallocPprof.Tasks
import JemallocPprof.Parser
import JemallocPprof.Dump
import JemallocPprof.Dump.Read
import JemallocPprof.Attribution
import JemallocPprof.Convert.Symbols
import JemallocPprof.Convert.Locations
import JemallocPprof.Convert.Samples
import JemallocPprof.Convert.Returns
import JemallocPprof.Reading
import JemallocPprof.Faithful.Frames
import JemallocPprof.Faithful.Symbols
import JemallocPprof.Faithful.Integrity
import JemallocPprof.Faithful.Labels
import JemallocPprof.Faithful.Totals
import JemallocPprof.Faithful.Weights
import JemallocPprof.Faithful.Dumps
import JemallocPprof.Faithful.Folding
import JemallocPprof.Faithful.Activation
import JemallocPprof.Faithful.Grammar
import JemallocPprof.Faithful.Foreign
import JemallocPprof.Faithful.Rebasing
import JemallocPprof.Faithful.NoteBounds
import JemallocPprof.Faithful.BuildIds
import JemallocPprof.Faithful.Interning
import JemallocPprof.Faithful.Casts
import JemallocPprof.Faithful.Widening
import JemallocPprof.Faithful.Encoding
import JemallocPprof.Faithful.Growth
import JemallocPprof.Faithful.Order
import JemallocPprof.Faithful.Merging
import JemallocPprof.Faithful.Loading
import JemallocPprof.Faithful.Provenance
import JemallocPprof.Faithful.Builds
import JemallocPprof.Faithful.Resolvers
import JemallocPprof.Dumping.Protocol
import JemallocPprof.Faithful.Interleaving
import JemallocPprof.Faithful.Serving
import JemallocPprof.Faithful.Drawing
import JemallocPprof.Faithful.Answering
