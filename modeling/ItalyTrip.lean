import ItalyTrip.Pool
import ItalyTrip.Constraints
import ItalyTrip.Server
import ItalyTrip.Handler
import ItalyTrip.Events
import ItalyTrip.Images
import ItalyTrip.Filenames
import ItalyTrip.Lock
import ItalyTrip.Upload
import ItalyTrip.Album
import ItalyTrip.Users
import ItalyTrip.Router
import ItalyTrip.Frames
import ItalyTrip.EventGuards
import ItalyTrip.LockSecrecy
import ItalyTrip.UploadRetry
import ItalyTrip.UploadFaults
import ItalyTrip.ConcurrentCreate
import ItalyTrip.Sessions
import ItalyTrip.RefreshExchange
import ItalyTrip.ReuseDetection
import ItalyTrip.Migrations
import ItalyTrip.Boot
import ItalyTrip.Browser
import ItalyTrip.ApiClient
import ItalyTrip.PhotoQueue
import ItalyTrip.Uploader
import ItalyTrip.FailedPuts
import ItalyTrip.System
import ItalyTrip.CaptureKept
import ItalyTrip.CaptureEvent
import ItalyTrip.RowsBacked
import ItalyTrip.ConcurrentRetries
import ItalyTrip.AlbumFinal
import ItalyTrip.GoTime
import ItalyTrip.AlbumReadable
import ItalyTrip.CookieJar
import ItalyTrip.HonestBrowser
import ItalyTrip.UploaderClass
import ItalyTrip.UploaderClient
import ItalyTrip.DrainCalls
import ItalyTrip.DrainExclusive
import ItalyTrip.OneUpload
import ItalyTrip.FreshCaptures
import ItalyTrip.Acknowledged
import ItalyTrip.DrainItems
import ItalyTrip.DrainPromise
import ItalyTrip.CaptureTime
import ItalyTrip.ArchiveNames
import ItalyTrip.Archive
import ItalyTrip.FailedRefresh
import ItalyTrip.Leftovers
import ItalyTrip.Origins
import ItalyTrip.Schemes
import ItalyTrip.CaptureOrder
import ItalyTrip.PageTimers
import ItalyTrip.StoppedUploader
import ItalyTrip.CappedWaits
import ItalyTrip.ClearedToken
import ItalyTrip.RequestSends
import ItalyTrip.RefreshCoalesced
import ItalyTrip.ThumbnailFit
import ItalyTrip.Lifetimes
import ItalyTrip.UploadSize
import ItalyTrip.Disposition
import ItalyTrip.Slugs
import ItalyTrip.ApiUrl
import ItalyTrip.BrowserOrigin
import ItalyTrip.InterruptedCreate
import ItalyTrip.NameOrder
import ItalyTrip.Backoff
import ItalyTrip.Alone
import ItalyTrip.Sweep
import ItalyTrip.Delivery
import ItalyTrip.Originals
import ItalyTrip.Entitled
import ItalyTrip.Polls
import ItalyTrip.EventForm
import ItalyTrip.Component
import ItalyTrip.Camera
import ItalyTrip.Slideshow
import ItalyTrip.WakeLock
import ItalyTrip.Startup
import ItalyTrip.History
import ItalyTrip.Navigation
import ItalyTrip.Downloads
import ItalyTrip.Countdown
