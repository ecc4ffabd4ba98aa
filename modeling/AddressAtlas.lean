import AddressAtlas.Atlas.Basic
import AddressAtlas.Atlas.Files
import AddressAtlas.Atlas.Rows
import AddressAtlas.Binary64.Basic
import AddressAtlas.Binary64.Parse
import AddressAtlas.Binary64.Shortest
import AddressAtlas.Delimited
import AddressAtlas.Entry
import AddressAtlas.Event
import AddressAtlas.Geo.Address
import AddressAtlas.Geo.Degrees
import AddressAtlas.Geo.Fault
import AddressAtlas.Geo.Place
import AddressAtlas.Geo.Point
import AddressAtlas.Geo.Record
import AddressAtlas.Gzip.Bits
import AddressAtlas.Gzip.Inflate
import AddressAtlas.Gzip.Member
import AddressAtlas.Gzip.PrefixCode
import AddressAtlas.Json.Basic
import AddressAtlas.Json.Found
import AddressAtlas.Json.Number
import AddressAtlas.Json.StringLiteral
import AddressAtlas.Key
import AddressAtlas.Outcome
import AddressAtlas.RangeTable.Basic
import AddressAtlas.RangeTable.Cursor
import AddressAtlas.RangeTable.Decode
import AddressAtlas.RangeTable.Lookup
import AddressAtlas.RangeTable.Text
import AddressAtlas.Search
import AddressAtlas.Text.Decimal
import AddressAtlas.Text.Quoted
import AddressAtlas.Text.Unprintable
import AddressAtlas.Text.Utf8
import AddressAtlas.Proofs.WordOrder
import AddressAtlas.Proofs.BoundarySearch
import AddressAtlas.Proofs.Storage
import AddressAtlas.Proofs.EntryOrder
import AddressAtlas.Proofs.TableLookup
import AddressAtlas.Proofs.Ledger
import AddressAtlas.Proofs.Refusals
import AddressAtlas.Proofs.CursorWindow
import AddressAtlas.Proofs.Numeral
import AddressAtlas.Proofs.ArrayGrammar
import AddressAtlas.Proofs.EntryGrammar
import AddressAtlas.Proofs.TableDecoding
import AddressAtlas.Proofs.TableEncoding
import AddressAtlas.Proofs.History
import AddressAtlas.Proofs.AtlasLookup
import AddressAtlas.Proofs.Utf8Encoding
import AddressAtlas.Proofs.WrittenRows
import AddressAtlas.Proofs.Insertions
import AddressAtlas.Proofs.RowLoading
import AddressAtlas.Proofs.FileLoading
import AddressAtlas.Proofs.WidthIndependence
import AddressAtlas.Proofs.Sessions
import AddressAtlas.Proofs.PartialLoads
import AddressAtlas.Proofs.JoinedInput
import AddressAtlas.Proofs.SplitLoads
import AddressAtlas.Proofs.NearestRounding
import AddressAtlas.Proofs.ExactArithmetic
import AddressAtlas.Proofs.Quantisation
import AddressAtlas.Proofs.AddressGrammar
import AddressAtlas.Proofs.CoordinateGrammar
import AddressAtlas.Proofs.PlacePacking
import AddressAtlas.Proofs.RowReading
import AddressAtlas.Proofs.CursorRuns
import AddressAtlas.Proofs.TableEquality
import AddressAtlas.Proofs.Truncation
import AddressAtlas.Proofs.ReadingOrder
import AddressAtlas.Proofs.Room
import AddressAtlas.Proofs.FaultChains
import AddressAtlas.Proofs.SearchRounds
import AddressAtlas.Proofs.EventLog
import AddressAtlas.Proofs.FirstRead
import AddressAtlas.Proofs.MemberHeader
import AddressAtlas.Proofs.StoredMembers
import AddressAtlas.Proofs.KeyStorage
