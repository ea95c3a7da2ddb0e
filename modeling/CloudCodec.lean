import CloudCodec.Decode.Recorder
import CloudCodec.Main
import CloudCodec.Proofs.Decode.Attachment
import CloudCodec.Proofs.Decode.Descent
import CloudCodec.Proofs.Decode.Failure
import CloudCodec.Proofs.Decode.Limit
import CloudCodec.Proofs.Decode.Offering
import CloudCodec.Proofs.Json.Sameness
import CloudCodec.Proofs.Numeral.Decimals
import CloudCodec.Proofs.Numeral.Digits
import CloudCodec.Proofs.Numeral.Integers
import CloudCodec.Proofs.Parameter.Flattening
import CloudCodec.Proofs.Parameter.Histories
import CloudCodec.Proofs.Parameter.Numbers
import CloudCodec.Proofs.Parameter.Query
import CloudCodec.Proofs.Parameter.Recovery
import CloudCodec.Proofs.Parameter.Scalars
import CloudCodec.Proofs.Parameter.Scope
import CloudCodec.Proofs.Request.Interfaces
import CloudCodec.Proofs.Request.Numbers
import CloudCodec.Proofs.Request.Parameters
import CloudCodec.Proofs.Request.Recovery
import CloudCodec.Proofs.Response.Cells
import CloudCodec.Proofs.Response.Completeness
import CloudCodec.Proofs.Response.Contents
import CloudCodec.Proofs.Response.Edits
import CloudCodec.Proofs.Response.Extension
import CloudCodec.Proofs.Response.Faithfulness
import CloudCodec.Proofs.Response.Leftovers
import CloudCodec.Proofs.Response.Listing
import CloudCodec.Proofs.Response.Overwriting
import CloudCodec.Proofs.Response.Receiving
import CloudCodec.Proofs.Response.Records
import CloudCodec.Proofs.Response.Volumes
import CloudCodec.Proofs.Xml.Brackets
import CloudCodec.Proofs.Xml.Fragments
import CloudCodec.Proofs.Xml.Outside
import CloudCodec.Proofs.Xml.Reading
import CloudCodec.Request.Basic
import CloudCodec.Xml.Element
