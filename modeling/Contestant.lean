import Contestant.Argon2.Block
import Contestant.Argon2.Filling
import Contestant.Argon2.Hash
import Contestant.Argon2.Parameters
import Contestant.Database.Query
import Contestant.Digest.Blake2b
import Contestant.Digest.Block
import Contestant.Digest.Hmac
import Contestant.Digest.Mixing
import Contestant.Digest.Sha1
import Contestant.Digest.Sha256
import Contestant.Fault
import Contestant.Form.Forms
import Contestant.Form.LengthRule
import Contestant.Json.Passage
import Contestant.Json.Punctuation
import Contestant.Json.Record
import Contestant.Json.Source
import Contestant.Json.Value
import Contestant.Number.Arithmetic
import Contestant.Number.Binary64
import Contestant.Number.Layout
import Contestant.Number.Reading
import Contestant.Number.Rounding
import Contestant.Number.Shortest
import Contestant.OneTime.Code
import Contestant.OneTime.Key
import Contestant.OneTime.ProvisioningUri
import Contestant.OneTime.Verifier
import Contestant.Password.HashText
import Contestant.Password.Verification
import Contestant.Profile.Recalculation
import Contestant.Profile.View
import Contestant.Scoring.Bonus
import Contestant.Scoring.DecayTable
import Contestant.Scoring.Scorer
import Contestant.Scoring.Tally
import Contestant.Scratch.Codes
import Contestant.Settings.Settings
import Contestant.Text.Bits
import Contestant.Text.Blank
import Contestant.Text.GraphemeExtend
import Contestant.Text.Quoted
import Contestant.Text.Radix
import Contestant.Text.Split
import Contestant.Text.Unprintable
import Contestant.Text.Utf8
import Contestant.Time.Instant
import Contestant.Token.Claims
import Contestant.Token.Header
import Contestant.Token.PublicKey
import Contestant.Token.Signed
import Contestant.TwoFactor.Account
import Contestant.TwoFactor.Credential
import Contestant.TwoFactor.Request
import Contestant.Url.Form
import Contestant.Url.Path
import Contestant.Url.Percent
import Contestant.Web.Endpoint
import Contestant.Web.Exchange
import Contestant.Web.MediaType
import Contestant.Web.Message
import Contestant.Proofs.TwoFactor.Call
import Contestant.Proofs.TwoFactor.Interleaving
import Contestant.Proofs.TwoFactor.Lifecycle
import Contestant.Proofs.TwoFactor.ReplayFloor
import Contestant.Proofs.TwoFactor.Confirmation
import Contestant.Proofs.Scratch.Consumption
import Contestant.Proofs.Scratch.StoredText
import Contestant.Proofs.TwoFactor.ScratchAccounting
import Contestant.Proofs.TwoFactor.Serializability
import Contestant.Proofs.Number.Order
import Contestant.Proofs.Number.Rounding
import Contestant.Proofs.TwoFactor.Phases
import Contestant.Proofs.Number.Monotone
import Contestant.Proofs.Profile.Recalculation
import Contestant.Proofs.Scoring.Dominance
import Contestant.Proofs.Scoring.Ranking
import Contestant.Proofs.Scoring.Reordering
import Contestant.Proofs.Scoring.Reported
import Contestant.Proofs.Scoring.Scorer
import Contestant.Proofs.Scoring.MoreSubmissions
import Contestant.Proofs.OneTime.Code
import Contestant.Proofs.OneTime.Key
import Contestant.Proofs.OneTime.Window
import Contestant.Proofs.OneTime.Verification
import Contestant.Proofs.Scratch.Typed
import Contestant.Proofs.TwoFactor.HonestClient
import Contestant.Proofs.TwoFactor.Usable
import Contestant.Proofs.TwoFactor.Failure
import Contestant.Proofs.Profile.Run
import Contestant.Proofs.Profile.Unchanged
import Contestant.Proofs.TwoFactor.Sides
import Contestant.Proofs.Text.Split
import Contestant.Proofs.Url.Percent
import Contestant.Proofs.Url.Form
import Contestant.Proofs.Url.Path
import Contestant.Proofs.OneTime.ProvisioningUri
import Contestant.Proofs.TwoFactor.AccountLabel
import Contestant.Proofs.Json.Texts
import Contestant.Proofs.Scratch.StoredFormat
import Contestant.Proofs.Json.Escapes
import Contestant.Proofs.Number.Decimal
import Contestant.Proofs.Json.Written
import Contestant.Proofs.Json.Records
import Contestant.Proofs.Token.Claims
import Contestant.Proofs.Token.Signed
import Contestant.Proofs.Number.UnitInterval
import Contestant.Proofs.Scoring.GeometricDecay
import Contestant.Proofs.Scoring.SaturatingBonus
import Contestant.Proofs.Scoring.BestResults
import Contestant.Proofs.Scoring.Improvement
import Contestant.Proofs.Scoring.Unscored
import Contestant.Proofs.Scoring.Faults
import Contestant.Proofs.OneTime.Truncation
import Contestant.Proofs.Scratch.Spending
import Contestant.Proofs.OneTime.KeyText
import Contestant.Proofs.Scoring.Arrangement
