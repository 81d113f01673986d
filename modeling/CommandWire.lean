import CommandWire.Capture
import CommandWire.Constants
import CommandWire.General
import CommandWire.Handover
import CommandWire.Proofs.Stream.Delivery
import CommandWire.Proofs.Stream.Repetition
import CommandWire.Proofs.Stream.Retention
import CommandWire.Proofs.Wire.Decoding
import CommandWire.Range.Build
import CommandWire.Request.Cursor
import CommandWire.Request.Edit
import CommandWire.Value.Hash
import CommandWire.Wire.Read
import CommandWire.Proofs.Matcher.Agreement
import CommandWire.Proofs.Request.Reading
import CommandWire.Proofs.Stream.Fragment
import CommandWire.Proofs.Wire.Paths
import CommandWire.Proofs.Range.Making
import CommandWire.Proofs.Range.Recognition
import CommandWire.Proofs.Request.Growth
import CommandWire.Proofs.Request.Interleaving
import CommandWire.Proofs.Matcher.Guards
import CommandWire.Proofs.Text.Quoted
import CommandWire.Proofs.Text.Utf8
import CommandWire.Proofs.Matcher.Difference
import CommandWire.Proofs.Stream.Residue
import CommandWire.Proofs.Text.Damage
import CommandWire.Proofs.Matcher.Search
import CommandWire.Proofs.Conversion.Integer
import CommandWire.Proofs.Matcher.Blame
import CommandWire.Proofs.Range.Draft
import CommandWire.Proofs.Number.Rounding
import CommandWire.Proofs.Conversion.Score
import CommandWire.Proofs.Number.Digits
import CommandWire.Proofs.Number.Shortest
import CommandWire.Proofs.Number.Scientific
import CommandWire.Proofs.Conversion.Float
import CommandWire.Proofs.Range.Shown
import CommandWire.Proofs.Wire.Handover
import CommandWire.Proofs.Stream.Closing
import CommandWire.Proofs.Stream.Room
import CommandWire.Proofs.Stream.Offers
import CommandWire.Proofs.Value.Distinct
import CommandWire.Proofs.Request.Asking
