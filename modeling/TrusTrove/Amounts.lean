import TrusTrove.Lib.Regex
import TrusTrove.JsValue

/-!
# Amounts in stroops

`toUsdc` and `fromUsdc` of `packages/sdk/src/amounts.ts`, and `fundedValueStroops` of
`apps/web/lib/assets.ts`. Amounts are bigints, whose division truncates.
-/

namespace TrusTrove

open Regex RegularExpression

def stroopsPerUsdc : ℤ := 10000000

def toUsdc (stroops : ℤ) : String :=
  let negative := decide (stroops < 0)
  let magnitude := if negative then -stroops else stroops
  let whole := magnitude.tdiv stroopsPerUsdc
  let fraction := magnitude.tmod stroopsPerUsdc
  let fractionStr := ((Int.repr fraction).toList.leftpad 7 '0').take 2
  let isZero := decide (whole = 0 ∧ fractionStr = ['0', '0'])
  String.ofList
    ((if negative && !isZero then ['-'] else []) ++ (Int.repr whole).toList ++ '.' :: fractionStr)

/-- `/^-?\d+(\.\d+)?$/` -/
def usdcPattern : RegularExpression Char :=
  opt (char '-') * (oneOrMore digit * opt (char '.' * oneOrMore digit))

def fromUsdc (usdc : String) : Except Thrown ℤ :=
  let trimmed := trimWhiteSpace usdc.toList
  if !usdcPattern.rmatch trimmed then
    .error (.error ("Invalid USDC amount: \"" ++ usdc ++ "\""))
  else
    let negative := trimmed.head? = some '-'
    let magnitude := if negative then trimmed.drop 1 else trimmed
    let parts := magnitude.splitOn '.'
    let intPart := parts.headD []
    -- a missing second part has the default `""`
    let fracPart := parts[1]?.getD []
    let paddedFrac := (fracPart.rightpad 7 '0').take 7
    do
      let stroops ← (Js.string (String.ofList (intPart ++ paddedFrac))).toBigInt
      .ok (if negative then -stroops else stroops)

def bpsDenominator : ℤ := 10000

/-- `Number.isInteger` -/
def Double.isInteger : Double → Bool
  | .finite q => q = ⌊q⌋
  | _ => false

def fundedValueStroops (faceValue : ℤ) (discountBps : Double) : Except Thrown ℤ :=
  if !discountBps.isInteger then
    .error (.typeError
      ("discountBps must be a whole number of basis points, got " ++ discountBps.toString))
  else do
    let bps ← (Js.number discountBps).toBigInt
    let fee := (faceValue * bps + bpsDenominator - 1).tdiv bpsDenominator
    .ok (faceValue - fee)

end TrusTrove
