import TableAlgebra.Json

/-!
# The command in a request

The body of a request comes as a JSON value, null if there is none to be had from it. The command
stands in one field of an object; a value of another shape is unfit, unless it holds nothing.
-/

namespace TableAlgebra.Web

/-- What is in a body: a command, none, or something that is no command. -/
inductive Payload where
  | command (text : Text)
  | missing
  | unfit
  deriving Repr, DecidableEq

/-- The command in a value; what holds nothing counts as missing. -/
def Payload.ofJson (v : Json) : Payload :=
  if !v.isTruthy then missing
  else
    match v with
    | .object _ =>
      match (v.field? "command").filter Json.isTruthy with
      | none => missing
      | some (.string s) => command s
      | some _ => unfit
    | _ => unfit

end TableAlgebra.Web
