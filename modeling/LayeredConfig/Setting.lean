import LayeredConfig.Base64
import LayeredConfig.Value

/-! The registry of settings: for each its key, the kind of value it takes, its default and
what it is for. The keys are a fixed format of files and messages. -/

namespace LayeredConfig

inductive Kind where
  | applicationName
  | nonEmptyText
  | notNullText
  | positive
  | nonNegative
  | positiveLong
  | retryTimeout
  | truth
  | base64
deriving DecidableEq, Repr

def Kind.text : Kind → Text
  | applicationName => "application_name"
  | nonEmptyText => "non_empty_string"
  | notNullText => "not_null_string"
  | positive => "positive_int"
  | nonNegative => "non_negative_int"
  | positiveLong => "positive_long"
  | retryTimeout => "retry_timeout"
  | truth => "boolean"
  | base64 => "base64"

/-- The settings, in the order of the registry. -/
inductive Setting where
  | applicationName
  | instanceZookeepers
  | zookeeperTimeout
  | accumuloZookeepers
  | accumuloInstance
  | accumuloUser
  | accumuloPassword
  | clientRetryTimeout
  | clientClass
  | accumuloTable
  | accumuloClasspath
  | adminClass
  | workerThreads
  | workerInstances
  | workerMaxMemory
  | workerNumCores
  | transactionRollbackTime
  | loaderThreads
  | loaderQueueSize
  | oracleInstances
  | oracleMaxMemory
  | oracleNumCores
  | miniClass
  | miniStartAccumulo
  | miniDataDir
  | metricsYamlBase64
deriving DecidableEq, Repr

namespace Setting

def all : List Setting := [
  applicationName, instanceZookeepers, zookeeperTimeout, accumuloZookeepers, accumuloInstance,
  accumuloUser, accumuloPassword, clientRetryTimeout, clientClass, accumuloTable,
  accumuloClasspath, adminClass, workerThreads, workerInstances, workerMaxMemory, workerNumCores,
  transactionRollbackTime, loaderThreads, loaderQueueSize, oracleInstances, oracleMaxMemory,
  oracleNumCores, miniClass, miniStartAccumulo, miniDataDir, metricsYamlBase64]

theorem mem_all (s : Setting) : s ∈ all := by cases s <;> decide

/-- The keys of a client's connection. -/
def clientSpace : Text := "io.fluo.client"

/-- The keys of an application's own settings. -/
def applicationSpace : Text := "io.fluo.app"

/-- What the key of an observer begins with. -/
def observerSpace : Text := "io.fluo.observer."

def name : Setting → Text
  | applicationName => "application_name"
  | instanceZookeepers => "instance_zookeepers"
  | zookeeperTimeout => "zookeeper_timeout"
  | accumuloZookeepers => "accumulo_zookeepers"
  | accumuloInstance => "accumulo_instance"
  | accumuloUser => "accumulo_user"
  | accumuloPassword => "accumulo_password"
  | clientRetryTimeout => "client_retry_timeout"
  | clientClass => "client_class"
  | accumuloTable => "accumulo_table"
  | accumuloClasspath => "accumulo_classpath"
  | adminClass => "admin_class"
  | workerThreads => "worker_threads"
  | workerInstances => "worker_instances"
  | workerMaxMemory => "worker_max_memory"
  | workerNumCores => "worker_num_cores"
  | transactionRollbackTime => "transaction_rollback_time"
  | loaderThreads => "loader_threads"
  | loaderQueueSize => "loader_queue_size"
  | oracleInstances => "oracle_instances"
  | oracleMaxMemory => "oracle_max_memory"
  | oracleNumCores => "oracle_num_cores"
  | miniClass => "mini_class"
  | miniStartAccumulo => "mini_start_accumulo"
  | miniDataDir => "mini_data_dir"
  | metricsYamlBase64 => "metrics_yaml_base64"

def key : Setting → Text
  | applicationName => "io.fluo.client.application.name"
  | instanceZookeepers => "io.fluo.client.zookeeper.connect"
  | zookeeperTimeout => "io.fluo.client.zookeeper.timeout"
  | accumuloZookeepers => "io.fluo.client.accumulo.zookeepers"
  | accumuloInstance => "io.fluo.client.accumulo.instance"
  | accumuloUser => "io.fluo.client.accumulo.user"
  | accumuloPassword => "io.fluo.client.accumulo.password"
  | clientRetryTimeout => "io.fluo.client.retry.timeout.ms"
  | clientClass => "io.fluo.client.class"
  | accumuloTable => "io.fluo.admin.accumulo.table"
  | accumuloClasspath => "io.fluo.admin.accumulo.classpath"
  | adminClass => "io.fluo.admin.class"
  | workerThreads => "io.fluo.worker.num.threads"
  | workerInstances => "io.fluo.worker.instances"
  | workerMaxMemory => "io.fluo.worker.max.memory.mb"
  | workerNumCores => "io.fluo.worker.num.cores"
  | transactionRollbackTime => "io.fluo.tx.rollback.time"
  | loaderThreads => "io.fluo.loader.num.threads"
  | loaderQueueSize => "io.fluo.loader.queue.size"
  | oracleInstances => "io.fluo.oracle.instances"
  | oracleMaxMemory => "io.fluo.oracle.max.memory.mb"
  | oracleNumCores => "io.fluo.oracle.num.cores"
  | miniClass => "io.fluo.mini.class"
  | miniStartAccumulo => "io.fluo.mini.start.accumulo"
  | miniDataDir => "io.fluo.mini.data.dir"
  | metricsYamlBase64 => "io.fluo.metrics.yaml.base64"

def kind : Setting → Kind
  | applicationName => .applicationName
  | accumuloPassword | accumuloClasspath => .notNullText
  | clientRetryTimeout => .retryTimeout
  | zookeeperTimeout | workerThreads | workerInstances | workerMaxMemory | workerNumCores
  | oracleInstances | oracleMaxMemory | oracleNumCores => .positive
  | transactionRollbackTime => .positiveLong
  | loaderThreads | loaderQueueSize => .nonNegative
  | miniStartAccumulo => .truth
  | metricsYamlBase64 => .base64
  | instanceZookeepers | accumuloZookeepers | accumuloInstance | accumuloUser | clientClass
  | accumuloTable | adminClass | miniClass | miniDataDir => .nonEmptyText

/-- The metrics reporter that runs where none is set. -/
def defaultMetrics : List UInt8 := "---\nfrequency: 60 seconds\n".toUTF8.toList

/-- Credentials, the application name and the table have no default. -/
def default? : Setting → Option Value
  | instanceZookeepers => some (.text "localhost/fluo")
  | zookeeperTimeout => some (.int 30000)
  | accumuloZookeepers => some (.text "localhost")
  | clientRetryTimeout => some (.int (-1))
  | clientClass => some (.text "io.fluo.core.client.FluoClientImpl")
  | accumuloClasspath => some (.text [])
  | adminClass => some (.text "io.fluo.core.client.FluoAdminImpl")
  | workerThreads => some (.int 10)
  | workerInstances => some (.int 1)
  | workerMaxMemory => some (.int 1024)
  | workerNumCores => some (.int 1)
  | transactionRollbackTime => some (.int 300000)
  | loaderThreads => some (.int 10)
  | loaderQueueSize => some (.int 10)
  | oracleInstances => some (.int 1)
  | oracleMaxMemory => some (.int 512)
  | oracleNumCores => some (.int 1)
  | miniClass => some (.text "io.fluo.mini.MiniFluoImpl")
  | miniStartAccumulo => some (.bool true)
  | miniDataDir => some (.text "${env:FLUO_HOME}/mini")
  | metricsYamlBase64 => some (.text (Base64.encode defaultMetrics))
  | applicationName | accumuloInstance | accumuloUser | accumuloPassword | accumuloTable => none

def description : Setting → Text
  | applicationName => "Fluo application name, used as a ZooKeeper node and HDFS path segment"
  | instanceZookeepers => "ZooKeeper connect string including the Fluo root"
  | zookeeperTimeout => "ZooKeeper session timeout in milliseconds"
  | accumuloZookeepers => "ZooKeepers used by Accumulo"
  | accumuloInstance => "Accumulo instance name"
  | accumuloUser => "Accumulo user"
  | accumuloPassword => "Accumulo password"
  | clientRetryTimeout => "Client retry timeout in milliseconds, -1 retries indefinitely"
  | clientClass => "Client implementation class"
  | accumuloTable => "Accumulo table backing the application"
  | accumuloClasspath => "Classpath Accumulo tablet servers load application code from"
  | adminClass => "Admin implementation class"
  | workerThreads => "Threads per worker"
  | workerInstances => "Number of worker processes"
  | workerMaxMemory => "Worker memory limit in MB"
  | workerNumCores => "Cores per worker"
  | transactionRollbackTime => "Time in milliseconds before a stalled transaction is rolled back"
  | loaderThreads => "Loader threads, 0 runs loaders in the calling thread"
  | loaderQueueSize => "Loader queue size"
  | oracleInstances => "Number of oracle processes"
  | oracleMaxMemory => "Oracle memory limit in MB"
  | oracleNumCores => "Cores per oracle"
  | miniClass => "MiniFluo implementation class"
  | miniStartAccumulo => "Start an embedded Accumulo for MiniFluo"
  | miniDataDir => "MiniFluo data directory"
  | metricsYamlBase64 => "Base64 encoded metrics reporter YAML"

def find? (nameOrKey : Text) : Option Setting :=
  (all.find? fun s => s.name = nameOrKey) <|> all.find? fun s => s.key = nameOrKey

/-- The keys and values of the settings that have a default, in the order of the registry. -/
def defaults : List (Text × Value) := all.filterMap fun s => s.default?.map fun v => (s.key, v)

end Setting

inductive TimeUnit where
  | milliseconds
  | seconds
  | minutes
  | hours
  | days
deriving DecidableEq, Repr

namespace TimeUnit

def inMillis : TimeUnit → Int
  | milliseconds => 1
  | seconds => 1000
  | minutes => 60 * 1000
  | hours => 60 * 60 * 1000
  | days => 24 * 60 * 60 * 1000

def toMillis (unit : TimeUnit) (duration : Int) : Int := duration * unit.inMillis

end TimeUnit

end LayeredConfig
