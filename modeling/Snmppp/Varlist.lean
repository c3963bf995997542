import Snmppp.NetSnmp
import Snmppp.OrdSet
/-!
# Varlist — the variable list wrapper (Varlist.hpp, Varlist.cpp)

A `Varlist` is a head pointer.  Its const methods walk the list and are functions of the varbinds the pointer reaches;
a pointer into the list is what is left of it from there on, so NULL is the empty rest.  Its `add` methods are methods
on the object, since the first varbind added changes the head pointer.
-/
namespace Snmppp

abbrev VecOID := List OID

abbrev SetOID := OrdSet OID

/-- What a method that changes nothing returns, throws or faults with. -/
abbrev Res (α : Type) := Except (Stop Exc) α

structure Varlist where
  varlist : Option VarPtr
deriving DecidableEq, Repr

/-- `OID( const netsnmp_variable_list * )`: the name of the first varbind, empty for NULL. -/
def OID.ofVarlist : List Varbind → OID
  | []     => ⟨[]⟩
  | p :: _ => ⟨p.name⟩

def Varbinds.first (vl : Varbinds) : Varbind := vl.vars.head vl.ne

namespace Varlist

def new : Varlist := ⟨none⟩

def empty (vl : Varlist) : Bool := vl.varlist.isNone

/-! ## The const methods, on what the pointer reaches -/

/-- `count_varbinds`. -/
def size (vl : List Varbind) : Nat := vl.length

/-- `getOids( VecOID & )` clears the vector it is given and pushes every name. -/
def getOids (vl : List Varbind) (v : VecOID) : VecOID :=
  vl.foldl (fun v p => v ++ [⟨p.name⟩]) (v.take 0)

/-- `getOids( SetOID & )`. -/
def getOidsSet (vl : List Varbind) : SetOID := vl.foldl (fun s p => s.insert ⟨p.name⟩) OrdSet.empty

def contains : List Varbind → OID → Bool
  | [], _      => false
  | p :: ps, o => if o = ⟨p.name⟩ then true else contains ps o

/-- The loop of `at`: the first varbind named `o`, with the rest of the list behind it. -/
def find : List Varbind → OID → List Varbind
  | [], _      => []
  | p :: ps, o => if o = ⟨p.name⟩ then p :: ps else find ps o

def atOID (vl : List Varbind) (o : OID) : Res Varbinds :=
  match find vl o with
  | []      => .error (.exn ⟨.invalidArgument, "Varlist does not contain OID ".toList ++ o.toStr ++ ".".toList⟩)
  | p :: ps => .ok ⟨p :: ps, List.cons_ne_nil p ps⟩

/-- `operator[]`. -/
def index : List Varbind → Nat → List Varbind
  | [], _           => []
  | p :: ps, 0       => p :: ps
  | _ :: ps, idx + 1 => index ps idx

def firstOID (vl : List Varbind) : Res OID :=
  if vl = [] then .error (.exn (logicError "Cannot get an OID from an empty variable list."))
  else .ok (OID.ofVarlist vl)

def asnType (vl : List Varbind) (o : OID) : Res UInt8 := do
  let p ← atOID vl o
  pure p.first.type

/-- `*val.integer`. -/
def readLong (val : List UInt8) : Res Int64 :=
  if val.length < 8 then .error .fault else .ok (Int64.ofNat (Bytes.toNat (val.take 8)))

/-- What a typed getter throws on a varbind of another type. -/
def notA (o : OID) (what : String) : Stop Exc :=
  .exn ⟨.invalidArgument, "OID ".toList ++ o.toStr ++ " is not a ".toList ++ what.toList ++ ".".toList⟩

def getBool (vl : List Varbind) (o : OID) : Res Bool := do
  let p ← atOID vl o
  if p.first.type ≠ ASN_BOOLEAN then .error (notA o "boolean type")
  else do
    let n ← readLong p.first.val
    pure (n == 1)

def getLong (vl : List Varbind) (o : OID) : Res Int64 := do
  let p ← atOID vl o
  if p.first.type ≠ ASN_INTEGER then .error (notA o "numeric type")
  else readLong p.first.val

def getString (vl : List Varbind) (o : OID) : Res (List UInt8) := do
  let p ← atOID vl o
  if p.first.type ≠ ASN_OCTET_STR then .error (notA o "string")
  else pure p.first.val

/-- `val_len/sizeof(unsigned long)` values from `val.objid` on. -/
def getOID (vl : List Varbind) (o : OID) : Res OID := do
  let p ← atOID vl o
  if p.first.type ≠ ASN_OBJECT_ID then .error (notA o "OID")
  else pure ⟨(Bytes.words 8 (p.first.val.length / 8) p.first.val).map UInt64.ofNat⟩

/-! ## The methods that change the object -/

def clear : Method Varlist Unit := Run.setThis ⟨none⟩

def free : Method Varlist Unit := do
  let vl ← Run.this
  Run.lift (if vl.varlist.isSome then snmpFreeVarbind vl.varlist else pure ())
  clear

section
variable (env : NetSnmp)

def addVar (o : OID) (type : UInt8) (value : List UInt8) : Method Varlist Unit :=
  if o.empty then Run.throws (invalidArgument "Cannot add an empty OID.")
  else do
    let vl ← Run.this
    let r ← Run.lift (snmpVarlistAddVariable env vl.varlist o type value)
    Run.setThis ⟨r.1⟩
    if r.2 then pure ()
    else Run.throws ⟨.runtimeError, "Failed to add ".toList ++ o.toStr ++ " to the variable list.".toList⟩

def addBooleanVar (o : OID) (value : Bool) : Method Varlist Unit :=
  addVar env o ASN_BOOLEAN (Bytes.ofNat 1 value.toNat)

def addIntegerVar (o : OID) (value : Int32) : Method Varlist Unit :=
  addVar env o ASN_INTEGER (Bytes.ofNat 4 value.toUInt32.toNat)

def addInteger64Var (o : OID) (value : Int64) : Method Varlist Unit :=
  addVar env o ASN_INTEGER64 (Bytes.ofNat 8 value.toUInt64.toNat)

def addGaugeVar (o : OID) (value : UInt32) : Method Varlist Unit :=
  addVar env o ASN_GAUGE (Bytes.ofNat 4 value.toNat)

/-- `value` is the `size` bytes the two arguments describe. -/
def addOctetStringVar (o : OID) (value : List UInt8) : Method Varlist Unit :=
  addVar env o ASN_OCTET_STR value

def addNullVar (o : OID) : Method Varlist Unit :=
  addVar env o ASN_NULL []

/-- `addNullVars( const SetOID & )`. -/
def addNullVarsSet (s : SetOID) : Method Varlist Unit := Run.each (addNullVar env) s.elems

/-- `addNullVars( const VecOID & )`. -/
def addNullVarsVec (v : VecOID) : Method Varlist Unit := Run.each (addNullVar env) v

end
end Varlist

/-- A call of one of the `add` methods, which `Varlist` and `PDU` both have. -/
inductive AddCall where
  | addBooleanVar (o : OID) (value : Bool)
  | addIntegerVar (o : OID) (value : Int32)
  | addInteger64Var (o : OID) (value : Int64)
  | addGaugeVar (o : OID) (value : UInt32)
  | addOctetStringVar (o : OID) (value : List UInt8)
  | addNullVar (o : OID)
deriving DecidableEq

namespace AddCall

def oid : AddCall → OID
  | addBooleanVar o _ | addIntegerVar o _ | addInteger64Var o _ | addGaugeVar o _ | addOctetStringVar o _
  | addNullVar o => o

def type : AddCall → UInt8
  | addBooleanVar _ _     => ASN_BOOLEAN
  | addIntegerVar _ _     => ASN_INTEGER
  | addInteger64Var _ _   => ASN_INTEGER64
  | addGaugeVar _ _       => ASN_GAUGE
  | addOctetStringVar _ _ => ASN_OCTET_STR
  | addNullVar _          => ASN_NULL

/-- The bytes the value argument points at. -/
def value : AddCall → List UInt8
  | addBooleanVar _ b     => Bytes.ofNat 1 b.toNat
  | addIntegerVar _ n     => Bytes.ofNat 4 n.toUInt32.toNat
  | addInteger64Var _ n   => Bytes.ofNat 8 n.toUInt64.toNat
  | addGaugeVar _ n       => Bytes.ofNat 4 n.toNat
  | addOctetStringVar _ s => s
  | addNullVar _          => []

variable (env : NetSnmp)

def onVarlist : AddCall → Method Varlist Unit
  | addBooleanVar o b     => Varlist.addBooleanVar env o b
  | addIntegerVar o n     => Varlist.addIntegerVar env o n
  | addInteger64Var o n   => Varlist.addInteger64Var env o n
  | addGaugeVar o n       => Varlist.addGaugeVar env o n
  | addOctetStringVar o s => Varlist.addOctetStringVar env o s
  | addNullVar o          => Varlist.addNullVar env o

theorem onVarlist_eq (c : AddCall) : c.onVarlist env = Varlist.addVar env c.oid c.type c.value := by
  cases c <;> rfl

def varbind (c : AddCall) : Varbind := ⟨c.oid.v, c.type, env.copyValue c.type c.value⟩

end AddCall
end Snmppp
