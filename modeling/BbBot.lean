import BbBot.Unix.Decimal
import BbBot.Unix.Text
import BbBot.Unix.Reading
import BbBot.Unix.FileSystem
import BbBot.Unix.Resolution
import BbBot.Unix.Commands
import BbBot.Unix.Directories
import BbBot.Unix.Pipes
import BbBot.Unix.Folders
import BbBot.SelfExtractor.MkSee
import BbBot.SelfExtractor.BlockSize
import BbBot.SelfExtractor.RoundTrip
import BbBot.Cleaning.Loop
import BbBot.Cleaning.Exact
import BbBot.Cleaning.Orphans
import BbBot.Applets.Setup
import BbBot.Applets.Inverse
import BbBot.Applets.OnlyAdds
import BbBot.SelfExtractor.OnlyClean
import BbBot.Accounts.Merge
import BbBot.Accounts.Status
import BbBot.Installer.Mounts
import BbBot.Installer.Release
import BbBot.Installer.Config
import BbBot.Installer.InstallDir
import BbBot.SelfExtractor.Options
import BbBot.SelfExtractor.Device
import BbBot.SelfExtractor.Dialogue
import BbBot.SelfExtractor.Session
import BbBot.Installer.Agreement
import BbBot.Installer.Verification
import BbBot.Build.Download
import BbBot.Build.Binaries
import BbBot.Build.Stamp
import BbBot.Build.Zip
import BbBot.Build.Universal
import BbBot.Build.Payload
import BbBot.Lifecycle.Places
import BbBot.Lifecycle.Steps
import BbBot.Lifecycle.History
import BbBot.Unix.Renumbering
import BbBot.Lifecycle.Upgrade
import BbBot.Ota.Script
import BbBot.Ota.Survival
import BbBot.SslHelper.Relay
import BbBot.SslHelper.World
import BbBot.SslHelper.Delivery
import BbBot.SslHelper.Progress
import BbBot.SslHelper.Waiting
