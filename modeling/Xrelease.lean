import Xrelease.Shown
import Xrelease.Allowed
import Xrelease.Rights
import Xrelease.Linked
import Xrelease.Novu
import Xrelease.Reported
import Xrelease.Waves
import Xrelease.Revived
import Xrelease.Prereleases
import Xrelease.Entitled
import Xrelease.Drafted
import Xrelease.Converged
import Xrelease.ApiPending
import Xrelease.Rendered
import Xrelease.Paged
import Xrelease.Redelivered
import Xrelease.Tagged
import Xrelease.Listed
import Xrelease.Coordinates
import Xrelease.InFlight
import Xrelease.Markers
import Xrelease.ReturnTo
import Xrelease.Dates
import Xrelease.Templates
import Xrelease.Derived
import Xrelease.Pasted
import Xrelease.Connected
import Xrelease.Lifecycle
import Xrelease.Scraped
import Xrelease.Keys
import Xrelease.Diffs
import Xrelease.Envelope
import Xrelease.Guarded
import Xrelease.SolePoller
import Xrelease.Csv
