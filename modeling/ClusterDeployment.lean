import ClusterDeployment.Regex
import ClusterDeployment.Run
import ClusterDeployment.Fabric
import ClusterDeployment.DriverReport
import ClusterDeployment.ApplicationTasks
import ClusterDeployment.JobRecord
import ClusterDeployment.FetchedOutput
import ClusterDeployment.LogRotation
import ClusterDeployment.Ensure
import ClusterDeployment.SshConfig
import ClusterDeployment.InitTask
import ClusterDeployment.HdfsServices
import ClusterDeployment.Puppet
import ClusterDeployment.SparkServices
import ClusterDeployment.FileTree
import ClusterDeployment.JarSync
import ClusterDeployment.ResourceGraph
import ClusterDeployment.HdfsMaster
import ClusterDeployment.HdfsHistory
import ClusterDeployment.Shell
import ClusterDeployment.SparkLaunch
import ClusterDeployment.SparkLifecycle
import ClusterDeployment.HdfsWorker
import ClusterDeployment.HdfsSite
import ClusterDeployment.InitRecovery
import ClusterDeployment.JarHistory
import ClusterDeployment.YarnSite
import ClusterDeployment.SparkCatalog
import ClusterDeployment.SparkDaemon
import ClusterDeployment.ReportSearch
