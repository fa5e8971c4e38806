import RpcGateway.Call.Activity
import RpcGateway.Call.Context
import RpcGateway.Call.Journal
import RpcGateway.Call.Method
import RpcGateway.Call.Sharing
import RpcGateway.Call.Timeout
import RpcGateway.Codec.Basic
import RpcGateway.Codec.Body
import RpcGateway.Codec.Negotiation
import RpcGateway.Codec.PathBinding
import RpcGateway.Collection.Keyed
import RpcGateway.Config.Basic
import RpcGateway.Config.Environment
import RpcGateway.Config.FileFormat
import RpcGateway.Config.FilePath
import RpcGateway.Config.KeyPath
import RpcGateway.Config.Load
import RpcGateway.Config.Reading
import RpcGateway.Config.Setting
import RpcGateway.Config.SocketAddress
import RpcGateway.Config.Toml.Document
import RpcGateway.Config.Toml.Node
import RpcGateway.Config.Toml.Scalar
import RpcGateway.Config.Toml.Text
import RpcGateway.Config.Yaml.Document
import RpcGateway.Config.Yaml.Node
import RpcGateway.Config.Yaml.Scalar
import RpcGateway.Config.Yaml.Spot
import RpcGateway.Config.Yaml.Tag
import RpcGateway.Config.Yaml.Token
import RpcGateway.Dispatch.Channel
import RpcGateway.Dispatch.Dispatcher
import RpcGateway.Dispatch.Interceptor
import RpcGateway.Dispatch.Invoker
import RpcGateway.Dispatch.Registry
import RpcGateway.Fault
import RpcGateway.Gateway.Basic
import RpcGateway.Gateway.Lifecycle
import RpcGateway.Gateway.Registration
import RpcGateway.Gateway.Server
import RpcGateway.Http.Exchange
import RpcGateway.Http.HeaderMap
import RpcGateway.Http.Uri
import RpcGateway.Http.Verb
import RpcGateway.Json.Basic
import RpcGateway.Json.Cursor
import RpcGateway.Json.Parser
import RpcGateway.Json.Printer
import RpcGateway.Json.Scalar
import RpcGateway.Main
import RpcGateway.Message.Basic
import RpcGateway.Message.Type
import RpcGateway.Metadata.Basic
import RpcGateway.Metadata.Bridge
import RpcGateway.Metadata.Lines
import RpcGateway.Number.Binary64
import RpcGateway.Number.Numeral
import RpcGateway.Number.Shortest
import RpcGateway.Proofs.Call.Annotation
import RpcGateway.Proofs.Call.Clock
import RpcGateway.Proofs.Call.Prompt
import RpcGateway.Proofs.Call.Race
import RpcGateway.Proofs.Call.Recording
import RpcGateway.Proofs.Call.Sequence
import RpcGateway.Proofs.Call.Sharing
import RpcGateway.Proofs.Call.Sink
import RpcGateway.Proofs.Call.Timeout
import RpcGateway.Proofs.Codec.BlankBody
import RpcGateway.Proofs.Codec.Frame
import RpcGateway.Proofs.Codec.MemberName
import RpcGateway.Proofs.Codec.Negotiation
import RpcGateway.Proofs.Codec.PathBinding
import RpcGateway.Proofs.Codec.PathTree
import RpcGateway.Proofs.Collection.Multimap
import RpcGateway.Proofs.Collection.Result
import RpcGateway.Proofs.Config.Environment
import RpcGateway.Proofs.Config.KeyByKey
import RpcGateway.Proofs.Config.Layers
import RpcGateway.Proofs.Config.Loading
import RpcGateway.Proofs.Config.Validation
import RpcGateway.Proofs.Config.Verbatim
import RpcGateway.Proofs.Dispatch.Delivery
import RpcGateway.Proofs.Dispatch.Implementation
import RpcGateway.Proofs.Dispatch.Passage
import RpcGateway.Proofs.Gateway.Agreement
import RpcGateway.Proofs.Gateway.BodyWriter
import RpcGateway.Proofs.Gateway.Cancellation
import RpcGateway.Proofs.Gateway.Course
import RpcGateway.Proofs.Gateway.Deadline
import RpcGateway.Proofs.Gateway.Failure
import RpcGateway.Proofs.Gateway.FrontDoor
import RpcGateway.Proofs.Gateway.Outcome
import RpcGateway.Proofs.Gateway.Precedence
import RpcGateway.Proofs.Gateway.Registration
import RpcGateway.Proofs.Gateway.ResponseLines
import RpcGateway.Proofs.Gateway.Trace
import RpcGateway.Proofs.Http.HeaderMap
import RpcGateway.Proofs.Http.Uri
import RpcGateway.Proofs.Json.Grammar
import RpcGateway.Proofs.Json.IntegerLiteral
import RpcGateway.Proofs.Json.Members
import RpcGateway.Proofs.Json.Printer
import RpcGateway.Proofs.Json.Scalar
import RpcGateway.Proofs.Message.Decoding
import RpcGateway.Proofs.Message.RoundTrip
import RpcGateway.Proofs.Message.WellFormed
import RpcGateway.Proofs.Metadata.Basic
import RpcGateway.Proofs.Metadata.Bridged
import RpcGateway.Proofs.Metadata.History
import RpcGateway.Proofs.Metadata.Lines
import RpcGateway.Proofs.Metadata.Merging
import RpcGateway.Proofs.Metadata.Reserved
import RpcGateway.Proofs.Metadata.Split
import RpcGateway.Proofs.Number.Rounding
import RpcGateway.Proofs.Route.Canonical
import RpcGateway.Proofs.Route.Compiled
import RpcGateway.Proofs.Route.CustomVerb
import RpcGateway.Proofs.Route.Grammar
import RpcGateway.Proofs.Route.Instantiation
import RpcGateway.Proofs.Route.PercentCoding
import RpcGateway.Proofs.Route.Spelling
import RpcGateway.Proofs.Schema.Int64
import RpcGateway.Proofs.Schema.Object
import RpcGateway.Proofs.Schema.Record
import RpcGateway.Proofs.Service.Binding
import RpcGateway.Proofs.Service.Payload
import RpcGateway.Proofs.Status
import RpcGateway.Proofs.Text.Blank
import RpcGateway.Proofs.Text.Decimal
import RpcGateway.Proofs.Text.Utf8
import RpcGateway.Proofs.Transport.Arrival
import RpcGateway.Proofs.Transport.Metadata
import RpcGateway.Proofs.Transport.Reply
import RpcGateway.Proofs.Transport.RoundTrip
import RpcGateway.Proofs.Transport.Trailers
import RpcGateway.Proofs.Wire.RoundTrip
import RpcGateway.Proofs.Wire.Varint
import RpcGateway.Rehearsal.Calls
import RpcGateway.Rehearsal.Codecs
import RpcGateway.Rehearsal.Parts
import RpcGateway.Rehearsal.Services
import RpcGateway.Rehearsal.Session
import RpcGateway.Rehearsal.World
import RpcGateway.Route.Match
import RpcGateway.Route.Template
import RpcGateway.Schema.Basic
import RpcGateway.Schema.Text
import RpcGateway.Schema.Tree
import RpcGateway.Service.Assets
import RpcGateway.Service.Audit
import RpcGateway.Service.Client
import RpcGateway.Service.Endpoint
import RpcGateway.Service.Method
import RpcGateway.Startup
import RpcGateway.Status
import RpcGateway.Text.Ascii
import RpcGateway.Text.Blank
import RpcGateway.Text.CodePoint
import RpcGateway.Text.CodeRanges
import RpcGateway.Text.Decimal
import RpcGateway.Text.LetterCase
import RpcGateway.Text.LowerCase
import RpcGateway.Text.Quoted
import RpcGateway.Text.Unprintable
import RpcGateway.Text.Utf8
import RpcGateway.Transport.Channel
import RpcGateway.Transport.Exchange
import RpcGateway.Transport.Metadata
import RpcGateway.Transport.Status
import RpcGateway.Transport.TimeLimit
import RpcGateway.Wire.Format
import RpcGateway.Wire.Reader
import RpcGateway.Wire.Varint
import RpcGateway.Wire.Writer
