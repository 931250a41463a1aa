import ProfilerGetSymbols.ProgLib.Outcome
import ProfilerGetSymbols.ProgLib.HashMap
import ProfilerGetSymbols.ProgLib.RangeMap
import ProfilerGetSymbols.ProgLib.SortDedup
import ProfilerGetSymbols.ProgLib.Packed
import ProfilerGetSymbols.ProgLib.Sweep
import ProfilerGetSymbols.ProgLib.Worklist
import ProfilerGetSymbols.ProgLib.Machine
import ProfilerGetSymbols.ProgLib.Chain
import ProfilerGetSymbols.ProgLib.Regex
import ProfilerGetSymbols.ProgLib.Family
import ProfilerGetSymbols.ProgLib.Uleb128
import ProfilerGetSymbols.ProgLib.BitList
import ProfilerGetSymbols.ProgLib.Json
import ProfilerGetSymbols.ProgLib.Columns
import ProfilerGetSymbols.Basic
import ProfilerGetSymbols.ChunkedReadBufferManager
import ProfilerGetSymbols.BufferReuse
import ProfilerGetSymbols.Cache
import ProfilerGetSymbols.CacheHistory
import ProfilerGetSymbols.CachePanics
import ProfilerGetSymbols.SliceReads
import ProfilerGetSymbols.Paths
import ProfilerGetSymbols.PathMapper
import ProfilerGetSymbols.SymbolicationResult
import ProfilerGetSymbols.Object
import ProfilerGetSymbols.RangeViews
import ProfilerGetSymbols.ReadStats
import ProfilerGetSymbols.CompactSymbolTable
import ProfilerGetSymbols.Symbols
import ProfilerGetSymbols.SymbolExtent
import ProfilerGetSymbols.NamePriority
import ProfilerGetSymbols.Crates
import ProfilerGetSymbols.Error
import ProfilerGetSymbols.Demangle
import ProfilerGetSymbols.OcamlNames
import ProfilerGetSymbols.LookedUpAddresses
import ProfilerGetSymbols.SymbolicateV5
import ProfilerGetSymbols.ResponseJson
import ProfilerGetSymbols.RequestJson
import ProfilerGetSymbols.FrameByFrame
import ProfilerGetSymbols.JobIndependence
import ProfilerGetSymbols.ModuleStatus
import ProfilerGetSymbols.Source
import ProfilerGetSymbols.ReportedFiles
import ProfilerGetSymbols.QueryApi
import ProfilerGetSymbols.FramesForSingleAddress
import ProfilerGetSymbols.Dwarf
import ProfilerGetSymbols.DebugSections
import ProfilerGetSymbols.EndianReader
import ProfilerGetSymbols.ObjectReferences
import ProfilerGetSymbols.ObjectNames
import ProfilerGetSymbols.AddressMatching
import ProfilerGetSymbols.AddressSplit
import ProfilerGetSymbols.DamagedMaps
import ProfilerGetSymbols.MachO
import ProfilerGetSymbols.ReadUleb128
import ProfilerGetSymbols.FunctionStarts
import ProfilerGetSymbols.FatArches
import ProfilerGetSymbols.Traversal
import ProfilerGetSymbols.TraversalAddresses
import ProfilerGetSymbols.Journeys
import ProfilerGetSymbols.AddressDistance
import ProfilerGetSymbols.TraversalEnds
import ProfilerGetSymbols.TraversalOrder
import ProfilerGetSymbols.HashOrder
import ProfilerGetSymbols.AddressOrder
import ProfilerGetSymbols.Readability
import ProfilerGetSymbols.Elf
import ProfilerGetSymbols.RelativeAddresses
import ProfilerGetSymbols.Windows
import ProfilerGetSymbols.PathMemo
import ProfilerGetSymbols.CargoPaths
import ProfilerGetSymbols.SourceUrls
import ProfilerGetSymbols.SpecialPaths
import ProfilerGetSymbols.KeptSymbols
import ProfilerGetSymbols.Candidates
import ProfilerGetSymbols.Provenance
import ProfilerGetSymbols.Protocol
import ProfilerGetSymbols.EntryPoints
import ProfilerGetSymbols.LocalFiles
import ProfilerGetSymbols.DumpTable
import ProfilerGetSymbols.TextPageIds
