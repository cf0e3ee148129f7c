import CodeSmells.Json.Read

/-!
# Kinds of contexts
-/

namespace CodeSmells

/-- The kind of unit that a context describes. -/
inductive Kind where
  | module
  | «class»
  | method
  | singletonMethod
deriving DecidableEq, Repr, Inhabited

namespace Kind

def name : Kind → String
  | module => "module"
  | «class» => "class"
  | method => "method"
  | singletonMethod => "singleton_method"

def all : List Kind :=
  [module, «class», method, singletonMethod]

def ofName? (name : String) : Option Kind :=
  all.find? fun kind => kind.name == name

open Json in
/-- The kind that a quoted name stands for. -/
def ofQuotation (quotation : Quotation) : Reading Kind := do
  let name ← quotation.read
  match ofName? name with
  | some kind => .ok kind
  | none => refuseAt (.unknownName name (all.map Kind.name)) quotation.stop

open Json in
/-- A kind as its name, or as an object with `null` under its name. -/
def read : Reader Kind
  | _, .text content => ofQuotation content
  | room, .object start entries => enter room start fun room =>
      match entries with
      | .close stop => refuseAt (.malformed .noValue) stop
      | .broken fault => refuseAt (.malformed .endInValue) fault.place
      | .keyless _ instead => refuse .variantName instead
      | .colonless key _ fault => do
          let _ ← ofQuotation key
          fault.read
      | .entry key _ value after more => do
          let kind ← ofQuotation key
          readNothing room value
          match more with
          | .close _ => .ok kind
          | .broken fault =>
              if fault.reading = .endInObject then fault.read
              else refuseAt (.malformed .noValue) after
          | _ => refuseAt (.malformed .noValue) after
  | _, .missing place => refuseAt (.malformed .endInValue) place
  | _, node => refuseAt (.malformed .noValue) (node.start + 1)

end Kind

end CodeSmells
