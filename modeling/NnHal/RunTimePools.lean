import NnHal.Hal

/-!
# Memory pools

A pool is memory of the client.  `RunTimePoolInfo.set` maps it; how depends on
the name of the memory: an `ashmem` is mapped by the service, an `mmap_fd` by
the driver itself with `mmap`.

The operating system is kept as the table of the regions that `mmap` has handed
out.  Regions are numbered in the order in which they are handed out and no
number is used twice, so a call of `munmap` either ends the region it names or
names none that is live.
-/

namespace NnHal

/-- `hidl_memory::name()`. -/
inductive MemoryName
  | ashmem | mmapFd | hardwareBufferBlob | other (name : String)
  deriving DecidableEq, Repr

/-- `hidl_memory`.  `object` is the memory behind the handle, and `writable` the
bit `PROT_WRITE` that the handle of an `mmap_fd` carries. -/
structure HidlMemory where
  name : MemoryName := .other ""
  size : Nat := 0
  object : Nat := 0
  writable : Bool := false
  deriving DecidableEq, Repr, Inhabited

/-- The kinds of memory that `RunTimePoolInfo::set` maps. -/
def HidlMemory.mappable (memory : HidlMemory) : Bool :=
  match memory.name with
  | .ashmem | .mmapFd | .hardwareBufferBlob => true
  | .other _ => false

/-- What a buffer pointer points to: memory the service has mapped, or a region
of `mmap`. -/
inductive Buffer
  | null
  | mapFailed
  | shared (object : Nat)
  | region (id object : Nat)
  deriving DecidableEq, Repr

/-- The memory behind a buffer; `none` for a pointer that must not be
followed. -/
def Buffer.object : Buffer → Option Nat
  | .null | .mapFailed => none
  | .shared object | .region _ object => some object

/-! ## The operating system -/

/-- The regions of `mmap`: the live ones, how many there have been, the ones
that have been unmapped, and the number of `munmap` calls on anything else. -/
structure Mappings where
  live : List Nat := []
  next : Nat := 0
  unmapped : List Nat := []
  stray : Nat := 0
  deriving DecidableEq, Repr

namespace Mappings

variable (os : Mappings)

/-- `mmap`: a new region, or `MAP_FAILED`. -/
def mmap (object : Nat) (succeeds : Bool) : Buffer × Mappings :=
  if succeeds then
    (.region os.next object, { os with live := os.next :: os.live, next := os.next + 1 })
  else (.mapFailed, os)

/-- `munmap`, with its result: zero when the region was live. -/
def munmap (buffer : Buffer) : Int × Mappings :=
  match buffer with
  | .region id _ =>
      if id ∈ os.live then
        (0, { os with live := os.live.erase id, unmapped := id :: os.unmapped })
      else (-1, { os with stray := os.stray + 1 })
  | _ => (-1, { os with stray := os.stray + 1 })

end Mappings

/-! ## One pool -/

/-- `RunTimePoolInfo`.  `memory` is the `IMemory` of an `ashmem`, unless it is
null. -/
structure RunTimePoolInfo where
  memory : Option Nat := none
  hidlMemory : HidlMemory := {}
  buffer : Buffer := .null
  deriving DecidableEq, Repr, Inhabited

namespace RunTimePoolInfo

variable (poolInfo : RunTimePoolInfo)

/-- `RunTimePoolInfo::set`; `maps` is whether the system maps the memory.  The
old buffer is overwritten, not unmapped. -/
def set (hidlMemory : HidlMemory) (maps : Bool) (os : Mappings) :
    Bool × RunTimePoolInfo × Mappings :=
  match hidlMemory.name with
  | .ashmem =>
      if maps then
        (true, { memory := some hidlMemory.object, hidlMemory,
                 buffer := .shared hidlMemory.object }, os)
      else (false, { memory := none, hidlMemory, buffer := .null }, os)
  | .mmapFd =>
      let (buffer, os) := os.mmap hidlMemory.object maps
      (buffer ≠ .mapFailed, { memory := poolInfo.memory, hidlMemory, buffer }, os)
  | .hardwareBufferBlob =>
      if maps then
        (true, { memory := poolInfo.memory, hidlMemory,
                 buffer := .shared hidlMemory.object }, os)
      else (false, { memory := poolInfo.memory, hidlMemory, buffer := .null }, os)
  | .other _ => (false, { memory := poolInfo.memory, hidlMemory, buffer := .null }, os)

/-- `RunTimePoolInfo::unmap_mem`. -/
def unmap_mem (os : Mappings) : Bool × RunTimePoolInfo × Mappings :=
  if poolInfo.buffer ≠ .null then
    if poolInfo.hidlMemory.name = .mmapFd then
      let (result, os) := os.munmap poolInfo.buffer
      if result ≠ 0 then (false, poolInfo, os)
      else (true, { poolInfo with buffer := .null }, os)
    else (true, poolInfo, os)
  else (true, poolInfo, os)

/-- `RunTimePoolInfo::update`; `syncs` is whether `msync` succeeds.  `none` where
the null pointer of an `ashmem` that was not mapped is followed. -/
def update (syncs : Bool) : Option Bool :=
  match poolInfo.hidlMemory.name with
  | .ashmem => poolInfo.memory.map fun _ => true
  | .mmapFd => if poolInfo.hidlMemory.writable then some syncs else some true
  | _ => some true

end RunTimePoolInfo

/-- `std::vector::resize`: entries are dropped at the end, or added as their
default. -/
def resize {α : Type} [Inhabited α] (v : List α) (n : Nat) : List α :=
  v.take n ++ List.replicate (n - v.length) default

@[simp]
theorem length_resize {α : Type} [Inhabited α] (v : List α) (n : Nat) :
    (resize v n).length = n := by
  unfold resize
  rw [List.length_append, List.length_take, List.length_replicate]
  omega

end NnHal
