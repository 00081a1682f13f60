import SparkTuner.Rules.Context

/-!
# What the application does

Rules about the way an application reads, serializes and collects garbage, and about the JVM and the
platform it runs on.
-/

namespace SparkTuner.Rules

open Number Text

variable {K : Type} [Quantity K]

/-- Redundant reads, in bytes, above which a cache pays. -/
def muchRedundantRead : Nat := 100 * SizeUnit.gib.bytes

/-- The percentage of distinct locations below which a cache pays. -/
def fewDistinctLocations : Nat := 50

/-- The condition under which the file cache should be used. -/
def fileCacheCaveat : String :=
  "Enable file cache only if Spark local disks bandwidth is > 1 GB/s and you have sufficient " ++
    "disk space available to fit both cache and normal Spark temporary data."

/-- Switches the file cache on when the same files are read again and again. -/
def fileCache (ctx : Context K) (s : State) : State :=
  if ctx.app.redundantReadBytes ≤ muchRedundantRead ∨
      Quantity.ofNat fewDistinctLocations ≤ ctx.app.distinctLocationPct then s
  else
    s.write [.registerCaveat Key.fileCacheEnabled fileCacheCaveat,
      .recommend Key.fileCacheEnabled "true"]

/-- The class of the Kryo serializer. -/
def kryoClass : String := "org.apache.spark.serializer.KryoSerializer"

/-- The registrator for data on the GPU. -/
def gpuRegistrator : String := "com.nvidia.spark.rapids.GpuKryoRegistrator"

/-- The least buffer of the Kryo serializer, in MiB. -/
def leastKryoBuffer : Nat := 512

/-- The names in a list of registrators, without blanks, in order of first occurrence. -/
def registratorNames (existing : String) : List (List Char) :=
  (((parts ',' existing.toList).map trim).filter (· ≠ [])).eraseDups

/-- A list of registrators with the one for the GPU in it. -/
def mergeRegistrators (existing : String) : String :=
  let names := registratorNames existing
  let gpu := gpuRegistrator.toList
  String.ofList (join [','] (if names.contains gpu then names else names ++ [gpu]))

/-- The buffer of the Kryo serializer in effect, in MiB, zero if it cannot be read. -/
def kryoBufferInEffect (K : Type) [Quantity K] (l : Ledger) : Nat :=
  ((l.getOrDefault? Key.kryoBufferMax).bind (Size.memory? K)).getD 0

/-- Makes the Kryo serializer work with data on the GPU. -/
def kryo (K : Type) [Quantity K] (s : State) : State :=
  if (s.ledger.get? Key.serializer).any fun v => occursIn kryoClass.toList v.toList then
    let existing := (s.ledger.get? Key.kryoRegistrator).getD ""
    let s := s.write [.recommend Key.kryoRegistrator (mergeRegistrators existing)]
    if kryoBufferInEffect K s.ledger < leastKryoBuffer then
      s.write [.recommend Key.kryoBufferMax (Size.ofMib leastKryoBuffer)]
    else s
  else s

/-- What is said when much time is spent collecting garbage. -/
def gcComment : String :=
  "Average JVM GC time is very high. Other Garbage Collectors can be used for better performance."

/-- The mean of a list of shares; none for the empty list. -/
def mean? (shares : List K) : Option K :=
  if shares = [] then none
  else some (shares.foldl (· + ·) (Quantity.ofNat 0) / Quantity.ofNat shares.length)

/-- Warns when the mean share of time spent collecting garbage is above three tenths. -/
def gc (ctx : Context K) (s : State) : State :=
  if (mean? ctx.app.gcFractions).any fun mean => Quantity.ofDecimal 3 1 < mean then
    s.write [.sayOnce gcComment]
  else s

/-- What is said of a character encoding that the GPU does not handle. -/
def fileEncodingComment : String :=
  "file.encoding should be [UTF-8] because GPU only supports the charset when using some " ++
    "expressions."

/-- Whether the GPU handles a character encoding. -/
def isSupportedEncoding (encoding : String) : Bool :=
  ["UTF-8", "UTF8"].contains (raised (trimmed encoding))

/-- Warns about JVM properties that the GPU cannot honour. -/
def systemProperties (ctx : Context K) (s : State) : State :=
  if (ctx.app.systemProperties.get? Key.fileEncoding).any (!isSupportedEncoding ·) then
    s.write [.sayOnce fileEncodingComment]
  else s

/-- Sets what the platform wants for the keys that the application leaves unset. -/
def platform (ctx : Context K) (s : State) : State :=
  s.write ((ctx.platform.wantedProperties.filter fun (key, _) =>
    !s.ledger.source.contains key).map fun (key, value) => .recommend key value)

end SparkTuner.Rules
