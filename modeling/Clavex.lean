import Clavex.FlowEngineSound
import Clavex.LoginMfaSound
import Clavex.LoginFlowSound
import Clavex.LoginSuspendSound
import Clavex.LoginTenantSound
import Clavex.OneTime
import Clavex.Elevate
import Clavex.DPoPSound
import Clavex.CodeReplaySound
import Clavex.RotationSound
import Clavex.TokenExchangeSound
import Clavex.FederationPathSound
import Clavex.Registration
import Clavex.StatusVerdictSound
import Clavex.PresentationSound
import Clavex.InputDescriptors
import Clavex.Policy
import Clavex.CIBASound
import Clavex.ConsentSound
import Clavex.PushedOnceSound
import Clavex.WalletStepUp
import Clavex.SignedToken
import Clavex.RateLimit
import Clavex.ScimSound
import Clavex.CampaignSound
import Clavex.MdocSound
import Clavex.StatusSlotsSound
import Clavex.OfferToken
import Clavex.Roles
import Clavex.Notification
import Clavex.DialGuard
import Clavex.Snapshots
import Clavex.ReplayIsolation
import Clavex.Pam
import Clavex.StatusBits
import Clavex.Rfc6979
import Clavex.Secrets
import Clavex.StatusHub
import Clavex.OTPThrottle
import Clavex.Risk
import Clavex.AgeCredential
