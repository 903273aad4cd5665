import Shiftgram.Swift

/- What an HTTP request hands to its handler: the status code, where there was a response at all, and
   the decoded JSON body, where there was one. The data managers read the body with forced casts
   (`as!`), which trap when the value has another type or is missing. -/
namespace Shiftgram

inductive Json
  | null
  | bool (b : Bool)
  | int (n : Int)
  /-- A number that is not an integer. -/
  | fraction (numerator : Int) (denominator : Nat)
  | string (s : String)
  | array (items : List Json)
  | dictionary (entries : List (String × Json))

namespace Json

/-- `self as! Int`: an integral number in range, or a boolean. -/
def asInt : Json → Option Int
  | int n => if Swift.fits64 n then some n else none
  | bool b => some (if b then 1 else 0)
  | _ => none

/-- `self as! String`. -/
def asString : Json → Option String
  | string s => some s
  | _ => none

/-- `self as! NSArray`. -/
def asArray : Json → Option (List Json)
  | array items => some items
  | _ => none

/-- `self as! NSDictionary`. -/
def asDictionary : Json → Option (List (String × Json))
  | dictionary entries => some entries
  | _ => none

end Json

/-- `value[key] as! Int`. -/
def intAt (value : List (String × Json)) (key : String) : Option Int :=
  (value.lookup key).bind Json.asInt

/-- `value[key] as! String`. -/
def stringAt (value : List (String × Json)) (key : String) : Option String :=
  (value.lookup key).bind Json.asString

/-- `response.response?.statusCode` and `response.result.value`. -/
structure DataResponse where
  statusCode : Option Int
  value : Option Json

end Shiftgram
