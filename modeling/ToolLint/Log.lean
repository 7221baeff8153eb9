import ToolLint.Text.Quoted
import ToolLint.Text.Decimal

/-!
# Log

The log tells what the linter does while it works. An entry has a level, a
message and named values; it is written as one line, with the names in order and
the error first. Below its level the log is silent. The time of an entry is not
part of it: the line shows a mark where the time stands.
-/

namespace ToolLint

namespace Log

inductive Level where
  | debug
  | info
  | warn
  | error
deriving DecidableEq, Repr

def Level.rank : Level → Nat
  | .debug => 0
  | .info => 1
  | .warn => 2
  | .error => 3

def Level.label : Level → Text
  | .debug => utf8 "DBG"
  | .info => utf8 "INF"
  | .warn => utf8 "WRN"
  | .error => utf8 "ERR"

inductive Value where
  | text (s : Text)
  | number (n : Int)
  | flag (b : Bool)
  | texts (ss : List Text)
deriving DecidableEq, Repr

structure Entry where
  level : Level
  message : Text
  fields : List (Text × Value)
deriving DecidableEq, Repr

/-! ## Values -/

/-- Must a value be quoted to be told from what surrounds it? -/
def needsQuotes (s : Text) : Bool :=
  s.any fun b => b < 0x20 || 0x7E < b || b == space || b == ascii '\\' ||
    b == ascii '"'

def listedChar (c : Char) : Text :=
  let n := c.toNat
  if c = '"' ∨ c = '\\' then [ascii '\\', ascii c]
  else if c = '\n' then utf8 "\\n"
  else if c = '\r' then utf8 "\\r"
  else if c = '\t' then utf8 "\\t"
  else if n = 0x08 then utf8 "\\b"
  else if n = 0x0C then utf8 "\\f"
  else if n < 0x20 ∨ n = 0x2028 ∨ n = 0x2029 then utf8 "\\u" ++ Quoted.hex 4 n
  else encodeChar c

def listed (s : Text) : Text :=
  ascii '"' :: (s.chars.flatMap listedChar ++ [ascii '"'])

def Value.render : Value → Text
  | .text s => if needsQuotes s.repaired then s.repaired.quoted else s.repaired
  | .number n => Decimal.ofInt n
  | .flag b => if b then utf8 "true" else utf8 "false"
  | .texts ss => utf8 "[" ++ Text.join (utf8 ",") (ss.map listed) ++ utf8 "]"

/-! ## Lines -/

def timeMark : Text := utf8 "<time>"

/-- The names that belong to the line itself and are not shown among the values.
-/
def reserved : List Text :=
  [utf8 "level", utf8 "time", utf8 "message", utf8 "caller"]

/-- The last value of a name, if it has one. -/
def lookup (fields : List (Text × Value)) (key : Text) : Option Value :=
  (fields.reverse.find? fun f => f.1 == key).map Prod.snd

/-- The names to show: each once, in order, but `error` before all others. -/
def orderedKeys (fields : List (Text × Value)) : List Text :=
  let keys := (fields.map Prod.fst).eraseDups.filter fun k => !reserved.contains k
  let sorted := keys.mergeSort Text.le
  if sorted.contains (utf8 "error") then
    utf8 "error" :: sorted.filter fun k => k != utf8 "error" && !k.isEmpty
  else sorted

def context : List (Text × Value) := [(utf8 "app", .text (utf8 "check-tool"))]

def Entry.line (e : Entry) : Text :=
  let fields := context ++ e.fields.map fun f => (f.1.repaired, f.2)
  let shown := (orderedKeys fields).filterMap fun k =>
    (lookup fields k).map fun v => k ++ utf8 "=" ++ v.render
  let parts := [timeMark, e.level.label] ++ (if e.message.isEmpty then [] else
    [e.message.repaired])
    ++ shown
  Text.join (utf8 " ") parts ++ [lf]

/-- What an entry writes into a log that shows debugging entries or only
warnings and worse. -/
def Entry.render (debug : Bool) (e : Entry) : Text :=
  let least := if debug then Level.debug else Level.warn
  if least.rank ≤ e.level.rank then e.line else []

def debug (message : Text) (fields : List (Text × Value)) : Entry :=
  ⟨.debug, message, fields⟩

end Log

end ToolLint
