import SparkTuner.Platform.Basic

/-!
# Instance types

The hardware of the machine types each cloud platform offers with a GPU.
-/

namespace SparkTuner

open Text

/-- The hardware of one worker. -/
structure Instance where
  cores : Nat
  memoryMib : Nat
  gpuCount : Nat
  gpu : Gpu
  deriving Repr, DecidableEq

namespace Instance

/-- Hardware with its memory given in GiB. -/
def ofGib (cores memoryGib gpuCount : Nat) (gpu : Gpu) : Instance :=
  ⟨cores, memoryGib * 1024, gpuCount, gpu⟩

/-- Machine types of Dataproc. -/
def dataproc : List (String × Instance) :=
  [("g2-standard-4", ofGib 4 16 1 .l4),
   ("g2-standard-8", ofGib 8 32 1 .l4),
   ("g2-standard-12", ofGib 12 48 1 .l4),
   ("g2-standard-16", ofGib 16 64 1 .l4),
   ("g2-standard-24", ofGib 24 96 2 .l4),
   ("g2-standard-32", ofGib 32 128 1 .l4),
   ("g2-standard-48", ofGib 48 192 4 .l4),
   ("g2-standard-96", ofGib 96 384 8 .l4)]

/-- Machine types of AWS. -/
def aws : List (String × Instance) :=
  [("g4dn.xlarge", ofGib 4 16 1 .t4),
   ("g4dn.2xlarge", ofGib 8 32 1 .t4),
   ("g4dn.4xlarge", ofGib 16 64 1 .t4),
   ("g4dn.8xlarge", ofGib 32 128 1 .t4),
   ("g4dn.12xlarge", ofGib 48 192 4 .t4),
   ("g4dn.16xlarge", ofGib 64 256 1 .t4),
   ("g5.xlarge", ofGib 4 16 1 .a10g),
   ("g5.2xlarge", ofGib 8 32 1 .a10g),
   ("g5.4xlarge", ofGib 16 64 1 .a10g),
   ("g5.8xlarge", ofGib 32 128 1 .a10g),
   ("g5.12xlarge", ofGib 48 192 4 .a10g),
   ("g5.16xlarge", ofGib 64 256 1 .a10g),
   ("g5.24xlarge", ofGib 96 384 4 .a10g)]

/-- Machine types of Azure. -/
def azure : List (String × Instance) :=
  [("Standard_NC4as_T4_v3", ofGib 4 28 1 .t4),
   ("Standard_NC8as_T4_v3", ofGib 8 56 1 .t4),
   ("Standard_NC16as_T4_v3", ofGib 16 110 1 .t4),
   ("Standard_NC64as_T4_v3", ofGib 64 440 4 .t4)]

end Instance

/-- The machine types of a platform. -/
def Platform.instances : Platform → List (String × Instance)
  | .onPrem => []
  | .dataproc => Instance.dataproc
  | .emr | .databricksAws => Instance.aws
  | .databricksAzure => Instance.azure

/-- The machine type a text names, in letters of either case. -/
def Platform.instance? (p : Platform) (text : String) : Option Instance :=
  let wanted := trimmed text
  (p.instances.find? fun entry => sameLetters entry.1 wanted).map (·.2)

end SparkTuner
