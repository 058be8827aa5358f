import ImageAudit.Audit
import ImageAudit.ByteStream
import ImageAudit.Bytes
import ImageAudit.Chain
import ImageAudit.CheckInfo
import ImageAudit.Classifier
import ImageAudit.Classifier.Report
import ImageAudit.Context
import ImageAudit.Exclusion
import ImageAudit.Failure
import ImageAudit.Feed
import ImageAudit.FileTree
import ImageAudit.Fixture.Layer
import ImageAudit.Fixture.Layout
import ImageAudit.Fixture.Package
import ImageAudit.Gzip
import ImageAudit.Gzip.Checksum
import ImageAudit.Gzip.Inflate
import ImageAudit.Gzip.Writer
import ImageAudit.Image.Config
import ImageAudit.Image.Layout
import ImageAudit.Image.Manifest
import ImageAudit.Json.Decode
import ImageAudit.Json.Reader
import ImageAudit.Json.Records
import ImageAudit.Json.Value
import ImageAudit.Json.Writer
import ImageAudit.Layer.Blob
import ImageAudit.Layer.Contents
import ImageAudit.Layer.Descriptor
import ImageAudit.Layer.Scan
import ImageAudit.OsRelease.DistTag
import ImageAudit.OsRelease.Tracker
import ImageAudit.Ownership
import ImageAudit.Package
import ImageAudit.Path
import ImageAudit.Proofs.Chain
import ImageAudit.Proofs.Coverage
import ImageAudit.Proofs.Exclusion
import ImageAudit.Proofs.Extension
import ImageAudit.Proofs.Fallible
import ImageAudit.Proofs.Findings
import ImageAudit.Proofs.Layer.Scan
import ImageAudit.Proofs.Modification
import ImageAudit.Proofs.Ownership
import ImageAudit.Proofs.PassCondition
import ImageAudit.Proofs.Path
import ImageAudit.Proofs.Rpm.FileList
import ImageAudit.Proofs.Rpm.HeaderStrings
import ImageAudit.Proofs.Text.ByteOrder
import ImageAudit.Proofs.Text.Occurrence
import ImageAudit.Proofs.Text.Utf8
import ImageAudit.Proofs.Unattended
import ImageAudit.Proofs.Verdict
import ImageAudit.Proofs.Widening
import ImageAudit.Rpm.Database
import ImageAudit.Rpm.HashFile
import ImageAudit.Rpm.HashFile.Writer
import ImageAudit.Rpm.Header
import ImageAudit.Rpm.Header.Writer
import ImageAudit.Rpm.Location
import ImageAudit.Rpm.PackageHeader
import ImageAudit.Rpm.Page
import ImageAudit.Rpm.TableFile.Column
import ImageAudit.Rpm.TableFile.Fault
import ImageAudit.Rpm.TableFile.Log
import ImageAudit.Rpm.TableFile.Query
import ImageAudit.Rpm.TableFile.Record
import ImageAudit.Rpm.TableFile.Tree
import ImageAudit.Rpm.TableFile.Writer
import ImageAudit.Rpm.Tag
import ImageAudit.Schedule
import ImageAudit.Settings
import ImageAudit.Settings.Document
import ImageAudit.Sha256
import ImageAudit.Sql.Approach
import ImageAudit.Sql.Catalog
import ImageAudit.Sql.Catalog.Draft
import ImageAudit.Sql.Catalog.Schema
import ImageAudit.Sql.Condition
import ImageAudit.Sql.Definition
import ImageAudit.Sql.Expression
import ImageAudit.Sql.Fault
import ImageAudit.Sql.Formula
import ImageAudit.Sql.Function
import ImageAudit.Sql.Function.Decimal
import ImageAudit.Sql.Function.Format
import ImageAudit.Sql.Function.Text
import ImageAudit.Sql.Itinerary
import ImageAudit.Sql.Numeral
import ImageAudit.Sql.Operation
import ImageAudit.Sql.Plan
import ImageAudit.Sql.Reader
import ImageAudit.Sql.Reader.Definition
import ImageAudit.Sql.Reader.Expression
import ImageAudit.Sql.Recursion
import ImageAudit.Sql.Scope
import ImageAudit.Sql.Selection
import ImageAudit.Sql.TableScan
import ImageAudit.Sql.Token
import ImageAudit.Sql.Value
import ImageAudit.Staging
import ImageAudit.Tar.Header
import ImageAudit.Tar.Pax
import ImageAudit.Tar.Reader
import ImageAudit.Tar.Writer
import ImageAudit.Text
import ImageAudit.Text.Hex
import ImageAudit.Text.Utf16
import ImageAudit.Text.Utf8
import ImageAudit.Yaml.Cursor
import ImageAudit.Yaml.Decode
import ImageAudit.Yaml.Node
import ImageAudit.Yaml.Scalar
import ImageAudit.Yaml.Tag
import ImageAudit.Yaml.Token
import ImageAudit.Yaml.Tokens
import ImageAudit.Proofs.PathAgreement
import ImageAudit.Proofs.Bytes
import ImageAudit.Proofs.Rpm.HeaderIndex
import ImageAudit.Proofs.Rpm.HeaderFields
import ImageAudit.Proofs.Rpm.PackageRoundTrip
import ImageAudit.Proofs.Rpm.HashFile.WrittenPage
import ImageAudit.Proofs.Rpm.HashFile.Listing
import ImageAudit.Proofs.Rpm.HashFile.Chain
import ImageAudit.Proofs.Rpm.HashFile.Layout
import ImageAudit.Proofs.Rpm.HashFile.RoundTrip
import ImageAudit.Proofs.Rpm.DatabaseRoundTrip
import ImageAudit.Proofs.Stateful
import ImageAudit.Proofs.Schedule
import ImageAudit.Proofs.TagVerdict
import ImageAudit.Proofs.FileTree
import ImageAudit.Proofs.Layer.Descriptor
import ImageAudit.Proofs.Staging
import ImageAudit.Proofs.Audit
import ImageAudit.Proofs.Tar.Header
import ImageAudit.Proofs.Tar.PathField
import ImageAudit.Proofs.Tar.Listing
import ImageAudit.Proofs.Layer.Members
import ImageAudit.Proofs.Tar.Written
import ImageAudit.Proofs.Fixture.Layer
import ImageAudit.Proofs.OsRelease.Exposed
import ImageAudit.Proofs.Inheritance
import ImageAudit.Proofs.SetIdExemption
import ImageAudit.Proofs.Confinement
import ImageAudit.Proofs.Gzip.Stored
import ImageAudit.Proofs.Json.Quoted
import ImageAudit.Proofs.Json.Numeral
import ImageAudit.Proofs.Json.RoundTrip
import ImageAudit.Proofs.Sha256
import ImageAudit.Proofs.FileTree.Building
import ImageAudit.Proofs.Tar.FirstBytes
import ImageAudit.Proofs.Layer.Blob
import ImageAudit.Proofs.Fixture.Documents
import ImageAudit.Proofs.Fixture.Layout
import ImageAudit.Proofs.Ownership.LastRun
import ImageAudit.Proofs.Rpm.HashFile.ChainValue
import ImageAudit.Proofs.Ranged
import ImageAudit.Proofs.Rpm.HashFile.InRange
import ImageAudit.Proofs.Rpm.HashFile.ListedValues
import ImageAudit.Proofs.Rpm.StoredIndex
import ImageAudit.Proofs.Rpm.HeaderInRange
import ImageAudit.Proofs.Rpm.HeaderAcceptance
import ImageAudit.Proofs.FileTree.Making
import ImageAudit.Proofs.Layer.Staged
import ImageAudit.Proofs.Layer.Database
import ImageAudit.Proofs.Rpm.HeaderRoundTrip
import ImageAudit.Proofs.Rpm.HeaderValues
import ImageAudit.Proofs.Rpm.FileListAlignment
import ImageAudit.Proofs.OsRelease.Declaration
import ImageAudit.Proofs.Path.NormalForm
import ImageAudit.Proofs.OsRelease.Tracked
import ImageAudit.Proofs.Layer.Cancellation
import ImageAudit.Proofs.LayerNames
import ImageAudit.Proofs.Fixture.OsRelease
import ImageAudit.Proofs.Gzip.Inflate
import ImageAudit.Proofs.Gzip.Members
import ImageAudit.Proofs.Layer.Opening
