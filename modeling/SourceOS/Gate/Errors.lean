import SourceOS.Foundation.PyString

/-!
# Errors of the egress gate, and how the daemon reports them

`errors.py` has one base class and six subclasses; everything else an operation may raise is a
built-in exception (a failed conversion, a database or operating-system error). `map_error` of
`protocol.py` turns an exception into the code and text of an error response; the order of its tests
does not matter for the classes modelled, since no two of the tested subclasses are related.

`PermissionError` here is the gate's own class, not the built-in one of that name: it is reported
under the code of the base class.
-/

namespace SourceOS.Gate

/-- What an operation of the gate may raise. -/
inductive Exc
  | replay (msg : Str)
  | expired (msg : Str)
  | baselineMissing (msg : Str)
  | permission (msg : Str)
  | nft (msg : Str)
  | validation (msg : Str)
  | builtin (e : BuiltinError)
  /-- A `ValueError` that repeats a text of the request. -/
  | value (msg : PyStr)
deriving DecidableEq

/-- `RpcError`. -/
structure RpcError where
  /-- The code. -/
  code : Str
  /-- The text. -/
  message : PyStr
deriving DecidableEq

/-- `str(e) or default`. -/
def orDefault (msg : Str) (default : String) : Str :=
  if msg = [] then default.toList else msg

/-- `map_error`. -/
def mapError : Exc → RpcError
  | .replay msg => ⟨"replay".toList, orDefault msg "replay detected"⟩
  | .expired msg => ⟨"expired".toList, orDefault msg "grant expired"⟩
  | .baselineMissing msg => ⟨"baseline_missing".toList, orDefault msg "nft baseline missing"⟩
  | .nft msg => ⟨"nft".toList, orDefault msg "nft error"⟩
  | .validation msg => ⟨"invalid".toList, orDefault msg "invalid request"⟩
  | .permission msg => ⟨"gate".toList, orDefault msg "gate error"⟩
  | .builtin e => ⟨"internal".toList, e.cls ++ ": ".toList ++ e.msg⟩
  | .value msg => ⟨"internal".toList, PyStr.lit "ValueError: " ++ msg⟩

end SourceOS.Gate
