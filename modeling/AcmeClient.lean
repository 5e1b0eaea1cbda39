import AcmeClient.Http.Script
import AcmeClient.Proofs.AllOrNothing
import AcmeClient.Proofs.Refusals
import AcmeClient.Proofs.SignedRequests
import AcmeClient.Proofs.SingleUse
import AcmeClient.Proofs.Frame
import AcmeClient.Proofs.Identity
import AcmeClient.Proofs.Retry
import AcmeClient.Proofs.Accessors
import AcmeClient.Proofs.Arguments
import AcmeClient.Proofs.Loaded
import AcmeClient.Proofs.Secrecy
import AcmeClient.Proofs.KnownDirectory
import AcmeClient.Proofs.Locations
import AcmeClient.Proofs.NonceText
import AcmeClient.Proofs.RetryInstants
import AcmeClient.Proofs.RetryNonce
import AcmeClient.Proofs.LastAnswer
import AcmeClient.Proofs.SignedMessages
import AcmeClient.Proofs.AccountBinding
import AcmeClient.Proofs.KeyChange
import AcmeClient.Proofs.DirectoryReading
import AcmeClient.Proofs.OrderPages
import AcmeClient.Proofs.WrittenLinks
import AcmeClient.Proofs.ProblemText
import AcmeClient.Proofs.Challenges
import AcmeClient.Proofs.CanonicalText
import AcmeClient.Proofs.DraftTexts
import AcmeClient.Proofs.DraftInstants
import AcmeClient.Proofs.Calendar.HttpDates
import AcmeClient.Proofs.TypeTexts
import AcmeClient.Proofs.Address.Canonical
import AcmeClient.Proofs.DirectoryEntries
import AcmeClient.Proofs.NoncePools
import AcmeClient.Proofs.Downloads
import AcmeClient.Proofs.TokenUrls
import AcmeClient.Proofs.KeyAuthorizations
import AcmeClient.Proofs.RequestForms
import AcmeClient.Proofs.MadeRequests
