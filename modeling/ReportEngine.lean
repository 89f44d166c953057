import ReportEngine.Config.Location
import ReportEngine.Engine
import ReportEngine.Expr.Build
import ReportEngine.Expr.Text
import ReportEngine.Item.Known
import ReportEngine.Item.Session
import ReportEngine.Proofs.Conversion
import ReportEngine.Proofs.Tracing
import ReportEngine.Proofs.ReadOrder
import ReportEngine.Proofs.Operators
import ReportEngine.Proofs.ExactDoubles
import ReportEngine.Proofs.RightIdentity
import ReportEngine.Proofs.KindSoundness
import ReportEngine.Proofs.Construction
import ReportEngine.Proofs.ErrorSafety
import ReportEngine.Proofs.FoldFixedPoint
import ReportEngine.Proofs.FoldedSize
import ReportEngine.Proofs.DateTimeText
import ReportEngine.Proofs.DecimalText
import ReportEngine.Proofs.DecimalToInt32
import ReportEngine.Proofs.DecimalMagnitude
import ReportEngine.Proofs.ExactDecimals
import ReportEngine.Proofs.NearestDoubles
import ReportEngine.Proofs.NearestWhole
import ReportEngine.Proofs.Escaping
import ReportEngine.Proofs.MarkupTokens
import ReportEngine.Proofs.MarkupReading
import ReportEngine.Proofs.PropertyOrder
import ReportEngine.Proofs.ItemBuilder
import ReportEngine.Proofs.MarkupRoundTrip
import ReportEngine.Proofs.ElementNesting
import ReportEngine.Proofs.SingleRoot
import ReportEngine.Proofs.AlikeBuilders
import ReportEngine.Proofs.UnknownElements
import ReportEngine.Proofs.CallProtocol
import ReportEngine.Proofs.WorkerChunks
import ReportEngine.Proofs.AggregatePass
import ReportEngine.Proofs.ItemFrames
import ReportEngine.Proofs.RenderRun
import ReportEngine.Proofs.FoldResidue
import ReportEngine.Proofs.FoldedInterface
import ReportEngine.Proofs.SessionLifecycles
import ReportEngine.Proofs.TomlQuoting
import ReportEngine.Proofs.TextCarrier
import ReportEngine.Proofs.TomlLines
import ReportEngine.Proofs.ConfigurationRoundTrip
import ReportEngine.Proofs.FirstMatch
import ReportEngine.Proofs.ExactIntegers
import ReportEngine.Proofs.OverflowDetection
import ReportEngine.Proofs.ShortestDoubles
import ReportEngine.Proofs.ValueOrder
import ReportEngine.Proofs.AcceptedValues
import ReportEngine.Proofs.ExtremalValues
import ReportEngine.Proofs.SurfaceDrawing
