import Lakehouse.Bluecarbon.Credits
import Lakehouse.Fisheries.Digest
import Lakehouse.Fisheries.Labels
import Lakehouse.GeoParquet.RoundTrip
import Lakehouse.GeoParquet.Wkb
import Lakehouse.Ingest.SignedRow
import Lakehouse.Kafka.Boundary
import Lakehouse.Kafka.Poison
import Lakehouse.Kafka.QuarantineSequence
import Lakehouse.Kafka.Reasons
import Lakehouse.Medallion.DedupKeys
import Lakehouse.Medallion.Gold
import Lakehouse.Medallion.GoldSchemas
import Lakehouse.Medallion.Report
import Lakehouse.Medallion.Silver
import Lakehouse.Mrv.Permutation
import Lakehouse.Mrv.Statement
import Lakehouse.PortStatistics.Keys
import Lakehouse.PortStatistics.Merge
import Lakehouse.PortStatistics.Quantile
import Lakehouse.PortStatistics.Report
import Lakehouse.Signing.Metrics
import Lakehouse.Signing.NumberLayout
import Lakehouse.Signing.Spellings
import Lakehouse.Stats.Interleaving
import Lakehouse.Storage.LiteralUri
import Lakehouse.Vessel.ErrorBound
import Lakehouse.Vessel.Rings
import Lakehouse.Vessel.SignedView
import Lakehouse.Vessel.Summaries
import Lakehouse.Vessel.Topology
