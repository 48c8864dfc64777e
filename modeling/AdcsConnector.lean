import AdcsConnector.Store.Paging
import AdcsConnector.Store.Sweep
import AdcsConnector.Store.Deadlock
import AdcsConnector.Provenance
import AdcsConnector.Store.Upgrade
import AdcsConnector.Layout
import AdcsConnector.CertificateBlocks
import AdcsConnector.Flags
import AdcsConnector.Interpolation
import AdcsConnector.Polling
import AdcsConnector.Shells
import AdcsConnector.SerialNumbers
import AdcsConnector.Authority.Update
import AdcsConnector.Authority.Verified
import AdcsConnector.Cms.Request
import AdcsConnector.ConfigString
import AdcsConnector.Names
import AdcsConnector.PageSize
import AdcsConnector.Transport
import AdcsConnector.Endpoints
import AdcsConnector.Issuing
import AdcsConnector.Offers
import AdcsConnector.Store.Sharing
import AdcsConnector.Store.Reclaim
import AdcsConnector.Store.Rest
import AdcsConnector.Scheduler
import AdcsConnector.Discovery
import AdcsConnector.Snapshots
import AdcsConnector.Recognition
import AdcsConnector.Answers
import AdcsConnector.Authority.Serial
