import DistributedMathArh.Network.TestSolveParam

namespace DistributedMathArh

/-- A sampling function by its distribution; `one` is what an unknown enumerator gets. -/
inductive DistributionFunctor
  | normal (mean dev : Double)
  | uniform (a b : Double)
  | exponential (lambda : Double)
  | one
  deriving DecidableEq

inductive DistributionType
  | normal
  | uniform
  | exponential
  | last
  deriving DecidableEq

def stringToDistributionType : List (String × DistributionType) :=
  [("normal", .normal), ("uniform", .uniform), ("exponential", .exponential)]

/-- `get<FloatType>` of the variant: only the alternative `double` will do. -/
def JsonVariant.getFloat : JsonVariant → Except Exn Double
  | .double d => .ok d
  | _ => .error .badVariantAccess

def JsonVariant.getString : JsonVariant → Except Exn String
  | .string s => .ok s
  | _ => .error .badVariantAccess

namespace Generators

def floatAt (args : Args) (key : String) : Except Exn Double :=
  match args.lookup key with
  | some v => v.getFloat
  | none => .error (.missingKey key)

def parseFuncOf (args : Args) : DistributionType → Except Exn DistributionFunctor
  | .normal => do return .normal (← floatAt args "mean") (← floatAt args "dev")
  | .uniform => do return .uniform (← floatAt args "a") (← floatAt args "b")
  | .exponential => do return .exponential (← floatAt args "lambda")
  | .last => .ok .one

def parseFunc (type : String) (args : Args) : Except Exn DistributionFunctor :=
  match stringToDistributionType.lookup type with
  | some t => parseFuncOf args t
  | none => .error (.invalidOption type)

/-- `ParseFunc(get<std::string>(args["type"]), args)`: a missing `type` is default-constructed. -/
def functorOf (args : Args) : Except Exn DistributionFunctor := do
  let type ← ((args.lookup "type").getD .null).getString
  parseFunc type args

end Generators

end DistributedMathArh
