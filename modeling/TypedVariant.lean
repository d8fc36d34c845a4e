import TypedVariant.Main
import TypedVariant.Log.Record
import TypedVariant.Ebnf
import TypedVariant.Signature.TypeCode
import TypedVariant.Variant.Access
import TypedVariant.Settings.Directory
import TypedVariant.Proofs.Signature.Grammar
import TypedVariant.Proofs.Signature.Reading
import TypedVariant.Proofs.Signature.Parsing
import TypedVariant.Proofs.Pack.Derivation
import TypedVariant.Proofs.Attempt
import TypedVariant.Proofs.Variant.Building
import TypedVariant.Proofs.Pack.Consumption
import TypedVariant.Proofs.Codec.Represents
import TypedVariant.Proofs.Codec.Canonical
import TypedVariant.Proofs.Variant.Typed
import TypedVariant.Proofs.Variant.Built
import TypedVariant.Proofs.Codec.Faithful
import TypedVariant.Proofs.Variant.Payload
import TypedVariant.Proofs.Signature.Depth
import TypedVariant.Proofs.Pack.TypeDirected
import TypedVariant.Proofs.Pack.Agreement
import TypedVariant.Proofs.Codec.Plain
import TypedVariant.Proofs.Native.Sameness
import TypedVariant.Proofs.Codec.Repacking
import TypedVariant.Proofs.Codec.Bare
import TypedVariant.Proofs.Unpack.Openings
import TypedVariant.Proofs.Codec.Limit
import TypedVariant.Proofs.Pack.Refusals
import TypedVariant.Proofs.Signature.RaisedLimit
import TypedVariant.Proofs.Pack.RaisedLimit
import TypedVariant.Proofs.Codec.RaisedLimit
import TypedVariant.Proofs.Signature.Viable
import TypedVariant.Proofs.Signature.Patterns
import TypedVariant.Proofs.Native.Keys
import TypedVariant.Proofs.Variant.Lookup
import TypedVariant.Proofs.Codec.Mapping
import TypedVariant.Proofs.Text.Quoted
import TypedVariant.Proofs.Text.Parts
import TypedVariant.Proofs.Variant.Literals
import TypedVariant.Proofs.Variant.Forms
import TypedVariant.Proofs.Variant.Printing
import TypedVariant.Proofs.Variant.Annotations
import TypedVariant.Proofs.Variant.Children
import TypedVariant.Proofs.Variant.TypeTests
import TypedVariant.Proofs.Codec.DictionaryView
import TypedVariant.Proofs.Bisection
import TypedVariant.Proofs.Json.Canonical
import TypedVariant.Proofs.Json.ReadBack
import TypedVariant.Proofs.Json.Reading
import TypedVariant.Proofs.Json.Tokens
import TypedVariant.Proofs.Json.Writing
import TypedVariant.Proofs.CommandLine.Outcome
import TypedVariant.Proofs.Double.Nearest
import TypedVariant.Proofs.Text.Numeral
import TypedVariant.Proofs.Variant.Numbers
import TypedVariant.Proofs.Text.Encoding
import TypedVariant.Proofs.Pack.Blob
import TypedVariant.Proofs.Pack.Elementwise
import TypedVariant.Proofs.ObjectPath
import TypedVariant.Proofs.Log.Fields
import TypedVariant.Proofs.Text.Lower
import TypedVariant.Proofs.Settings.Loading
import TypedVariant.Proofs.Ebnf.ReadBack
