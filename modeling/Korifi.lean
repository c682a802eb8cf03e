import Korifi.GoSort.Data
import Korifi.GoSort.Insertion
import Korifi.GoSort.Heap
import Korifi.GoSort.Pivot
import Korifi.GoSort.Quick
import Korifi.Repositories.Records
import Korifi.Repositories.Domain
import Korifi.Repositories.Package
import Korifi.Repositories.Order
import Korifi.Repositories.ClientFactory
import Korifi.Apis.PackageUpload
import Korifi.Actions.ReadAppLogs
import Korifi.Apis.SpaceManifest
import Korifi.Apis.PackageLifecycle
