import BlogDemo.Lambda.Safety
import BlogDemo.Lambda.ErrorClasses
import BlogDemo.Board.Access
import BlogDemo.AppSync.Answers
import BlogDemo.Listing.Complete
import BlogDemo.Operator.Admission
import BlogDemo.Operator.Deletion
import BlogDemo.Operator.Status
import BlogDemo.Operator.Quiescence
import BlogDemo.Cdn.Errors
import BlogDemo.Cdn.Cache
import BlogDemo.Frontend.Coherence
import BlogDemo.Frontend.Logout
import BlogDemo.Frontend.Retry
import BlogDemo.Msa.Identity
import BlogDemo.Sqs.Delivery
import BlogDemo.ThreeTier.App
import BlogDemo.Flink.DataStreamJob
import BlogDemo.Pac.Coverage
import BlogDemo.Frontend.Login
import BlogDemo.Frontend.Loads
import BlogDemo.Lambda.Cookie
import BlogDemo.Pac.Images
import BlogDemo.TestApp.CpuLoad
import BlogDemo.Hubble.NormalizeHttp
import BlogDemo.Operator.Conflicts
import BlogDemo.Msa.Logout
import BlogDemo.Msa.Me
import BlogDemo.Flink.Windows
import BlogDemo.Lambda.Orphans
import BlogDemo.ZeroTrust.Requests
import BlogDemo.Pac.Quota
import BlogDemo.Istio.RateLimit
import BlogDemo.Sqs.AtLeastOnce
import BlogDemo.Operator.DeepCopy
import BlogDemo.TerraformCiCd.Workflows
import BlogDemo.Operator.Uncomment
import BlogDemo.Cdn.Uploads
import BlogDemo.Operator.Liveness
