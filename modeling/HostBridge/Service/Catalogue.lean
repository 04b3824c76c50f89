import HostBridge.Abi
import HostBridge.NativeType

/-!
# Runtime services

Every service that generated code may call, with an advisory signature, the runtime families that
have it, and who supplies its address.
-/

namespace HostBridge

/-- The type of a parameter or result of a service. -/
inductive ServiceType where
  /-- A host value. -/
  | value
  /-- An interned name. -/
  | id
  | long
  | pointer
  | int
  | int64
deriving DecidableEq, Repr

namespace ServiceType

/-- The type as a symbol in listings. -/
def symbol : ServiceType → String
  | .value => "Value"
  | .id => "Id"
  | .long => "Long"
  | .pointer => "Ptr"
  | .int => "Int"
  | .int64 => "I64"

/-- The spelling of a type in C declarations. -/
def declaration : ServiceType → String
  | .value => "VALUE"
  | .id => "ID"
  | .long => "long"
  | .pointer => "void *"
  | .int => "int"
  | .int64 => "int64_t"

/-- The machine type for a given pointer type. -/
def irType (pointerType : IrType) : ServiceType → IrType
  | .value | .id | .long | .pointer => pointerType
  | .int => .i32
  | .int64 => .i64

end ServiceType

/-- Types of the parameters and results of a call in generated code. -/
structure Signature where
  /-- Types of the parameters. -/
  params : List IrType
  /-- Types of the results. -/
  returns : List IrType
deriving DecidableEq, Repr

/-- The advisory signature of a service. -/
structure ServiceSignature where
  /-- The fixed parameters. -/
  params : List ServiceType
  /-- The result, if there is one. -/
  result : Option ServiceType
  /-- Whether further arguments may follow the fixed ones. -/
  variadic : Bool
deriving DecidableEq, Repr

namespace ServiceSignature

/-- The machine signature; only the fixed parameters have a place in it. -/
def toSignature (pointerType : IrType) (signature : ServiceSignature) : Signature :=
  { params := signature.params.map (·.irType pointerType)
    returns := signature.result.toList.map (·.irType pointerType) }

/-- The signature as a declaration. -/
def render (signature : ServiceSignature) : String :=
  let params := signature.params.map ServiceType.declaration
  let all := if signature.variadic then params ++ ["..."] else params
  "(" ++ String.intercalate ", " all ++ ") -> "
    ++ (signature.result.map ServiceType.declaration).getD "void"

end ServiceSignature

/-- Who supplies the address of a service. -/
inductive Provider where
  | host
  | bridge
deriving DecidableEq, Repr

namespace Provider

/-- The provider as a symbol in listings. -/
def symbol : Provider → String
  | .host => "Host"
  | .bridge => "Bridge"

end Provider

/-- A catalogued service. -/
structure Service where
  /-- The name of the service. -/
  name : String
  /-- Its signature; `none` if the address is that of data. -/
  signature : Option ServiceSignature
  /-- The only runtime family that has it; `none` if both have it. -/
  only : Option Abi
  /-- Who supplies it. -/
  provider : Provider
deriving DecidableEq, Repr

namespace Service

/-- Whether a runtime family has the service. -/
def includes (abi : Abi) (service : Service) : Bool :=
  match service.only with
  | some only => only == abi
  | none => true

/-! ## The catalogue -/

/-- A host service of both families. -/
def host (name : String) (params : List ServiceType) (result : Option ServiceType) : Service :=
  { name, signature := some ⟨params, result, false⟩, only := none, provider := .host }

/-- A host service of both families that takes further arguments. -/
def hostVariadic (name : String) (params : List ServiceType) (result : Option ServiceType) :
    Service :=
  { name, signature := some ⟨params, result, true⟩, only := none, provider := .host }

/-- A host service of one family. -/
def hostOf (abi : Abi) (name : String) (params : List ServiceType)
    (result : Option ServiceType) : Service :=
  { name, signature := some ⟨params, result, false⟩, only := some abi, provider := .host }

/-- State of one family's runtime. -/
def stateOf (abi : Abi) (name : String) : Service :=
  { name, signature := none, only := some abi, provider := .host }

/-- A service of the bridge. -/
def bridge (name : String) (params : List ServiceType) (result : Option ServiceType) : Service :=
  { name, signature := some ⟨params, result, false⟩, only := none, provider := .bridge }

/-- Method dispatch. -/
def dispatch : List Service :=
  [hostVariadic "funcall" [.value, .id, .int] (some .value),
    host "funcall2" [.value, .id, .int, .pointer] (some .value),
    host "funcall3" [.value, .id, .int, .pointer] (some .value),
    host "call_super" [.int, .pointer] (some .value),
    host "add_method" [.value, .id, .pointer, .int] none,
    host "method_boundp" [.value, .id, .int] (some .int),
    host "obj_is_kind_of" [.value, .value] (some .value),
    host "class_of" [.value] (some .value),
    host "singleton_class" [.value] (some .value),
    host "extend_object" [.value, .value] none,
    host "include_module" [.value, .value] none]

/-- Strings. -/
def strings : List Service :=
  [host "obj_as_string" [.value] (some .value),
    host "str_dup" [.value] (some .value),
    host "str_plus" [.value, .value] (some .value),
    host "str_concat" [.value, .value] (some .value),
    host "string_value_ptr" [.pointer] (some .pointer),
    host "id2name" [.id] (some .pointer)]

/-- Arrays. -/
def arrays : List Service :=
  [host "ary_new" [] (some .value),
    host "ary_new2" [.long] (some .value),
    hostVariadic "ary_new3" [.long] (some .value),
    host "ary_new4" [.long, .pointer] (some .value),
    host "ary_push" [.value, .value] (some .value),
    host "ary_pop" [.value] (some .value),
    host "ary_store" [.value, .long, .value] none,
    host "ary_entry" [.value, .long] (some .value),
    host "ary_concat" [.value, .value] (some .value),
    host "ary_to_ary" [.value] (some .value),
    host "ary_dup" [.value] (some .value)]

/-- Hashes, ranges, numbers and regular expressions. -/
def collections : List Service :=
  [host "hash_new" [] (some .value),
    host "hash_aset" [.value, .value, .value] (some .value),
    host "hash_aref" [.value, .value] (some .value),
    host "range_new" [.value, .value, .int] (some .value),
    host "uint2inum" [.long] (some .value),
    host "reg_nth_match" [.int, .value] (some .value),
    host "reg_match" [.value, .value] (some .value),
    host "reg_match2" [.value] (some .value)]

/-- Variables and constants. -/
def bindings : List Service :=
  [host "ivar_set" [.value, .id, .value] (some .value),
    host "ivar_get" [.value, .id] (some .value),
    host "ivar_defined" [.value, .id] (some .value),
    host "cvar_set" [.value, .id, .value, .int] none,
    host "cvar_get" [.value, .id] (some .value),
    host "cvar_defined" [.value, .id] (some .value),
    host "gv_set" [.pointer, .value] (some .value),
    host "gv_get" [.pointer] (some .value),
    host "gvar_defined" [.pointer] (some .value),
    host "global_entry" [.id] (some .pointer),
    host "const_get" [.value, .id] (some .value),
    host "const_defined" [.value, .id] (some .value),
    host "const_defined_from" [.value, .id] (some .value)]

/-- Blocks and iteration. -/
def blocks : List Service :=
  [host "yield" [.value] (some .value),
    host "yield_splat" [.value] (some .value),
    host "block_given_p" [] (some .int),
    host "block_proc" [] (some .value),
    host "iterate" [.pointer, .value, .pointer, .value] (some .value),
    host "proc_new" [.pointer, .value] (some .value),
    host "iter_break" [] none]

/-- Protection, rescue and jumps. -/
def jumps : List Service :=
  [host "ensure" [.pointer, .value, .pointer, .value] (some .value),
    host "rescue" [.pointer, .value, .pointer, .value] (some .value),
    hostVariadic "rescue2" [.pointer, .value, .pointer, .value] (some .value),
    host "protect" [.pointer, .value, .pointer] (some .value),
    host "jump_tag" [.int] none,
    host "errinfo" [] (some .value)]

/-- Type checks. -/
def types : List Service :=
  [host "type" [.value] (some .int),
    host "check_type" [.value, .int] none,
    host "data_object_alloc" [.value, .pointer, .pointer, .pointer] (some .value)]

/-- Memory and its collector. -/
def storage : List Service :=
  [host "xmalloc" [.long] (some .pointer),
    host "xcalloc" [.long, .long] (some .pointer),
    host "xrealloc" [.pointer, .long] (some .pointer),
    host "xfree" [.pointer] none,
    host "gc_mark" [.value] none,
    host "gc_mark_locations" [.pointer, .pointer] none]

/-- Syntax nodes. -/
def nodes : List Service :=
  [host "node_newnode" [.int, .value, .value, .value] (some .pointer),
    host "wrap_node" [.pointer] (some .value),
    host "unwrap_node" [.value] (some .pointer),
    host "eval_node" [.value, .pointer] (some .value)]

/-- State of the tree-walking interpreter. -/
def interpreterState : List Service :=
  [hostOf .frameScope "svar" [.int] (some .pointer),
    stateOf .frameScope "ruby_frame",
    stateOf .frameScope "ruby_scope",
    hostOf .frameScope "splat_iterate_proc" [.value, .value] (some .value)]

/-- State of the bytecode machine. -/
def machineState : List Service :=
  [hostOf .callFrame "vm_spp" [] (some .pointer),
    hostOf .callFrame "thread_jmp_buf" [] (some .pointer),
    hostOf .callFrame "thread_tag" [] (some .pointer),
    hostOf .callFrame "set_thread_tag" [.pointer] none]

/-- What the bridge provides itself. -/
def own : List Service :=
  [bridge "frame_protect" [.int64, .pointer, .pointer, .pointer] (some .int64),
    bridge "frame_signal" [.int, .int64, .int64] none,
    bridge "frame_pending" [] (some .int),
    bridge "frame_current" [] (some .pointer),
    bridge "block_pass_call" [.value, .id, .value, .value] (some .value),
    bridge "block_pass_fcall" [.value, .id, .value, .value] (some .value),
    bridge "current_location" [] (some .pointer)]

/-- Every service, in listing order. -/
def catalogue : List Service :=
  dispatch ++ strings ++ arrays ++ collections ++ bindings ++ blocks
    ++ jumps ++ types ++ storage ++ nodes ++ interpreterState ++ machineState ++ own

/-- The service of a name. -/
def find? (name : String) : Option Service :=
  catalogue.find? (·.name == name)

/-- The services that the host has to supply. -/
def hostServices (abi : Abi) : List Service :=
  catalogue.filter fun service => service.provider == .host && service.includes abi

/-- The machine signature of a catalogued service. -/
def signature? (name : String) (pointerType : IrType) : Option Signature := do
  let service ← find? name
  let signature ← service.signature
  some (signature.toSignature pointerType)

end Service

end HostBridge
