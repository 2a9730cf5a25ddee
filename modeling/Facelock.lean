import Facelock.Auth.Suppression
import Facelock.Client.Login
import Facelock.Templates.Reencrypt
import Facelock.Templates.Migrations
import Facelock.Camera.Mplane
import Facelock.Purge.Pass
import Facelock.Lifecycle.Exclusion
import Facelock.Pam.Outline
import Facelock.Pam.Legacy
import Facelock.Camera.Capture
import Facelock.Keys.Gate
import Facelock.Keys.History
import Facelock.RemoveAll.Provenance
import Facelock.Store.Sequences
import Facelock.RemoveAll.History
import Facelock.Config.Updates
import Facelock.Auth.Window
import Facelock.Daemon.Ingress
import Facelock.Daemon.Reload
import Facelock.Daemon.CurrentRequest
import Facelock.Requests.Hold
