import NetDefender.Lib.Buckets
import NetDefender.Lib.Keyed
import NetDefender.Output.Builder

/-!
# Ports

The registry of `netif.c`: a port gets its id and its name from `netif_alloc`, and
`netif_port_register` puts it into a table hashed by the id and into one hashed by the name.

An assertion that fails is `none`.  What the memory pool answers is an input of a call, and
the fields of a port that only the device driver reads are left out, with the routine that
sets them up.
-/

namespace NetDefender.Netif

open CString

def NETIF_MAX_PORTS : Nat := 4096

def NETIF_PORT_ID_INVALID : Nat := NETIF_MAX_PORTS

def NETIF_PORT_TABLE_BITS : Nat := 8

def NETIF_PORT_TABLE_BUCKETS : Nat := 1 <<< NETIF_PORT_TABLE_BITS

def NETIF_PORT_TABLE_MASK : Nat := NETIF_PORT_TABLE_BUCKETS - 1

def IFNAMSIZ : Nat := 16

/-- The error codes that are returned here. -/
inductive Endf where
  | ok
  | inval
  | exist
  | noneAlCore
  deriving DecidableEq, Repr

/-- `struct netif_port`; the name is what stands before the NUL. -/
structure NetifPort where
  name : Bytes
  id : Nat
  terminated : 0 ∉ name
  fits : name.length < IFNAMSIZ
  deriving DecidableEq, Repr

/-- The file's static data: `port_id_end`, `g_nports`, `port_tab` and `port_ntab`. -/
structure Registry where
  portIdEnd : Nat := 0
  gNports : Nat := 0
  portTab : Nat → List NetifPort := fun _ => []
  portNtab : Nat → List NetifPort := fun _ => []

/-! ## Searching -/

/-- `port_tab_hashkey`. -/
def portTabHashkey (id : Nat) : Nat := id &&& NETIF_PORT_TABLE_MASK

/-- A turn of the loop of `port_ntab_hashkey`, where `char` is signed. -/
def mixChar (hash : BitVec 32) (char : UInt8) : BitVec 32 :=
  hash ^^^ ((hash <<< 5) + char.toBitVec.signExtend 32 + (hash >>> 2))

/-- `port_ntab_hashkey`. -/
def portNtabHashkey (name : Bytes) (len : Nat) : Nat :=
  ((text (name.take len)).foldl mixChar 1315423911#32).toNat % NETIF_PORT_TABLE_BUCKETS

/-- `netif_port_get`. -/
def netifPortGet (registry : Registry) (id : Nat) : Option (Option NetifPort) :=
  if id ≤ NETIF_MAX_PORTS then
    some ((registry.portTab (portTabHashkey id)).find? fun port => port.id = id)
  else none

/-- `netif_port_get_by_name`. -/
def netifPortGetByName (registry : Registry) : Option Bytes → Option NetifPort
  | none => none
  | some name =>
      if (text name).length = 0 then none
      else
        (registry.portNtab (portNtabHashkey name (text name).length)).find? fun port =>
          port.name = text name

/-! ## Allocation -/

/-- The loop of `netif_port_id_alloc`: the first id from `pid` down to 1 that no port
has. -/
def freeIdFrom (registry : Registry) : Nat → Option (Option Nat)
  | 0 => some none
  | pid + 1 =>
      match netifPortGet registry (pid + 1) with
      | none => none
      | some none => some (some (pid + 1))
      | some (some _) => freeIdFrom registry pid

/-- The scan of `netif_port_id_alloc`, which is made if ids outnumber the ports. -/
def reuseId (registry : Registry) : Option (Option Nat) :=
  if registry.portIdEnd > registry.gNports then
    freeIdFrom registry (registry.portIdEnd - 1)
  else some none

/-- `netif_port_id_alloc`. -/
def netifPortIdAlloc (registry : Registry) : Option (Nat × Registry) := do
  match ← reuseId registry with
  | some pid => some (pid, registry)
  | none =>
      some (registry.portIdEnd,
        { registry with portIdEnd := (registry.portIdEnd + 1) % 2 ^ 16 })

/-- What `printf` makes of a format with the id as its argument; `none` for a conversion
other than `%d` and `%%`, and for a second `%d`. -/
def format (id : Nat) (unread : Bool) : Bytes → Option Bytes
  | [] => some []
  | 37 :: 100 :: rest =>
      if unread then (format id false rest).map (Output.printUnsigned id ++ ·) else none
  | 37 :: 37 :: rest => (format id unread rest).map (37 :: ·)
  | 37 :: _ => none
  | char :: rest => (format id unread rest).map (char :: ·)

/-- A port whose name is printed into `dev->name`. -/
def NetifPort.named (id : Nat) (line : Bytes) : NetifPort where
  name := Output.snprintf IFNAMSIZ (text line)
  id := id
  terminated := fun member => by
    have kept := List.mem_takeWhile_imp (List.mem_of_mem_take member)
    simp at kept
  fits := by
    have short := List.length_take_le (IFNAMSIZ - 1) (text line)
    rw [Output.snprintf]
    simp only [IFNAMSIZ] at short ⊢
    omega

/-- The id of a new port: the one that is asked for, unless it is taken. -/
def chooseId (registry : Registry) (id : Nat) : Option (Nat × Registry) := do
  if id ≠ NETIF_PORT_ID_INVALID then
    match ← netifPortGet registry id with
    | none => some (id, registry)
    | some _ => netifPortIdAlloc registry
  else netifPortIdAlloc registry

/-- What is printed into the name of a port with an id. -/
def printName (id : Nat) (namefmt : Bytes) : Option Bytes :=
  if occursIn (ascii "%d") namefmt then format id true namefmt else some namefmt

/-- `netif_alloc`; `memory` says whether `rte_zmalloc` succeeds. -/
def netifAlloc (registry : Registry) (id : Nat) (namefmt : Bytes) (memory : Bool) :
    Option (Option NetifPort × Registry) := do
  if memory then
    let (id, registry) ← chooseId registry id
    let line ← printName id (text namefmt)
    return (some (.named id line), registry)
  else return (none, registry)

/-! ## Registration -/

/-- `netif_port_register`. -/
def netifPortRegister (registry : Registry) : Option NetifPort → Endf × Registry
  | none => (.inval, registry)
  | some port =>
      let hash := portTabHashkey port.id
      if (registry.portTab hash).any fun cur => cur.id = port.id ∨ cur.name = port.name then
        (.exist, registry)
      else
        let nhash := portNtabHashkey port.name IFNAMSIZ
        if (registry.portNtab hash).any fun cur =>
            cur.id = port.id ∨ cur.name = port.name then
          (.exist, registry)
        else
          (.ok, { registry with
            portTab := Buckets.push registry.portTab hash port
            portNtab := Buckets.push registry.portNtab nhash port
            gNports := (registry.gNports + 1) % 2 ^ 16 })

end NetDefender.Netif
