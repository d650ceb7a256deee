import Datacl.Lib.Frequency
import Datacl.Lib.RankSketch
import Datacl.Lib.RankPick
import Datacl.Lib.Buckets
import Datacl.Lib.Binary64
import Datacl.Lib.Probing
import Datacl.Lib.Bytes
import Datacl.Lib.CInt
import Datacl.Lib.Words
import Datacl.Lib.BitFields
import Datacl.Lib.Chunks
import Datacl.Lib.Delimited
import Datacl.Lib.Tally
import Datacl.Text.Values
import Datacl.Text.CompoundLine
import Datacl.Text.Url
import Datacl.Approx.Frequent
import Datacl.Approx.Packets
import Datacl.Approx.FrequentCounters
import Datacl.Approx.FrequentGuarantee
import Datacl.Approx.Selected
import Datacl.Approx.Quantile
import Datacl.Approx.QuantileCollapse
import Datacl.Approx.QuantileSketch
import Datacl.Approx.QuantileBlocks
import Datacl.Approx.QuantileSelected
import Datacl.Approx.CollapsePositions
import Datacl.Approx.QuantileScan
import Datacl.Approx.QuantileSlots
import Datacl.Approx.QuantileOutput
import Datacl.Approx.QuantileGuarantee
import Datacl.Approx.QuantileInvariant
import Datacl.Approx.Unique
import Datacl.Approx.UniqueSketch
import Datacl.Approx.UniqueFold
import Datacl.Approx.UniqueGuarantee
import Datacl.Csv.ReadCsv
import Datacl.Csv.Cells
import Datacl.Csv.Reading
import Datacl.Csv.Coverage
import Datacl.Csv.RoundTrip
import Datacl.Lib.Command
import Datacl.Meta.FldInfo
import Datacl.Meta.FldInfoIndex
import Datacl.Meta.FldInfoHistory
import Datacl.Meta.Store
import Datacl.Meta.Fields
import Datacl.Meta.Check
import Datacl.Meta.SetMeta
import Datacl.Meta.Stats
import Datacl.Meta.FailedCalls
import Datacl.Meta.DelFld
import Datacl.Meta.Orphans
import Datacl.Meta.FieldSpecs
import Datacl.Meta.Tables
import Datacl.Meta.Names
import Datacl.Meta.NamesRun
import Datacl.Meta.Links
import Datacl.Meta.LinksOps
import Datacl.Meta.LinksFields
import Datacl.Meta.LinksMove
import Datacl.Meta.LinksRun
import Datacl.Meta.Deletable
import Datacl.Csv.Status
import Datacl.Order.SetOps
import Datacl.Order.Union
import Datacl.Order.MaskedUnion
import Datacl.Order.SetOpsCounts
import Datacl.Order.Columns
import Datacl.Order.Truthful
import Datacl.Order.TruthfulSort
import Datacl.Order.AppTbl
import Datacl.Order.AppFld
import Datacl.Order.AppLoop
import Datacl.Order.AllOrNothing
import Datacl.Order.TruthfulCopy
import Datacl.Order.TruthfulRun
import Datacl.Dict.MkDict
import Datacl.Dict.Naming
import Datacl.Dict.AddErrors
import Datacl.Dict.Dump
import Datacl.Dict.Lookup
import Datacl.Vec.Partition
import Datacl.Vec.StringLayout
import Datacl.Vec.StringOffsets
import Datacl.Vec.BitColumn
import Datacl.Vec.BitBlocks
import Datacl.Vec.BitRoundTrip
import Datacl.Vec.BitSum
import Datacl.Vec.MultScalar
import Datacl.Vec.MultScalarHash
import Datacl.Vec.MultScalarMember
import Datacl.Vec.Reduce
import Datacl.Vec.UnaryOps
import Datacl.Vec.Pack
import Datacl.Vec.PackBounds
import Datacl.Vec.PackRoundTrip
import Datacl.Vec.ZeroAfterN
import Datacl.Compound.Count
import Datacl.Compound.CountAgreement
import Datacl.Compound.CountExact
import Datacl.Compound.SafeCount
import Datacl.Compound.BlockBounds
import Datacl.Compound.CountHt
import Datacl.Compound.CountHtTable
import Datacl.Compound.CountHtRows
import Datacl.Compound.CountHtGroups
import Datacl.Compound.CountVals
import Datacl.Compound.CountValsGroups
import Datacl.Join.SrtJoin
import Datacl.Join.Matching
import Datacl.Join.Parallel
import Datacl.Join.Agreement
import Datacl.Join.Overwritten
import Datacl.Join.Aggregates
import Datacl.Join.NullFlag
import Datacl.Join.RngJoin
import Datacl.Join.CrossProd
import Datacl.Lib.Looping
import Datacl.Lib.InPlace
import Datacl.Approx.UpdateCounter
import Datacl.Lib.Runs
import Datacl.Pattern.Patmatch
import Datacl.Pattern.Terminates
import Datacl.Pattern.Rounds
import Datacl.Pattern.RunMarks
import Datacl.Pattern.Exact
import Datacl.Lib.CountingSort
import Datacl.Lib.Swap
import Datacl.Lib.Shift
import Datacl.Lib.MinHeap
import Datacl.Sorting.IsSorted
import Datacl.Sorting.LkpSort
import Datacl.Sorting.Subsample
import Datacl.Sorting.BinCounts
import Datacl.Sorting.SrtUniform
import Datacl.Sorting.SrtUniformSorted
import Datacl.Sorting.ParSortWithBins
import Datacl.Sorting.TopN
import Datacl.Sorting.TopNKept
import Datacl.Sorting.TopNReadme
import Datacl.Sorting.TopNPrefix
import Datacl.Search.BinSearch
import Datacl.Search.BinSearchWalk
import Datacl.Search.Neighbours
import Datacl.Lib.Tokens
import Datacl.Text.StrToArgv
import Datacl.Vec.PrimeSizes
import Datacl.Vec.PartitionTiles
import Datacl.Search.Blocks
import Datacl.Search.DirIsAInB
import Datacl.Search.NumInRange
import Datacl.Search.MkBins
import Datacl.Search.IsAInB
import Datacl.Sorting.Qsort
import Datacl.Sorting.QsortPartition
import Datacl.Sorting.QsortStack
import Datacl.Sorting.QsortInsertion
import Datacl.Sorting.QsortSorted
import Datacl.Csv.PrintCell
import Datacl.Csv.NullFlags
import Datacl.Csv.CellBuffer
import Datacl.Csv.Header
import Datacl.Meta.Room
import Datacl.Meta.SlotZero
import Datacl.Meta.IndexRuns
import Datacl.Meta.Dictionaries
import Datacl.Order.CopyField
import Datacl.Order.CopyRanges
import Datacl.Order.CopyFld
import Datacl.Lib.RowProgram
import Datacl.Vec.RowOps
import Datacl.Compound.Expr
import Datacl.Compound.ExprRows
import Datacl.Compound.ExprTotals
import Datacl.Compound.ExprRun
import Datacl.Compound.ExprFields
import Datacl.Compound.ExprSequential
import Datacl.Compound.ExprStatus
import Datacl.Meta.OrphanFiles
import Datacl.Lib.Cached
import Datacl.Order.Fop
import Datacl.Order.ColumnStats
import Datacl.Order.ColumnSteps
import Datacl.Order.StatsRun
import Datacl.Docroots.Confined
import Datacl.Docroots.Columns
import Datacl.Lib.Interleaving
import Datacl.Docroots.Machine
import Datacl.Docroots.Bootstrap
import Datacl.Docroots.Alone
import Datacl.Docroots.Inherited
import Datacl.Docroots.Server
import Datacl.Docroots.Sessions
