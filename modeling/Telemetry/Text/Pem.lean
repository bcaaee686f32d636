import Telemetry.Text.Base64

namespace Telemetry.Pem

def opening : Bytes := Bytes.ofText "-----BEGIN "

def ending : Bytes := Bytes.ofText "-----END "

def dashes : Bytes := Bytes.ofText "-----"

def dropPrefix? (part bytes : Bytes) : Option Bytes :=
  if part.isPrefixOf bytes then some (bytes.drop part.length) else none

def dropSuffix? (part bytes : Bytes) : Option Bytes :=
  if part.isSuffixOf bytes then some (bytes.take (bytes.length - part.length)) else none

def dropLineEnd? : Bytes → Option Bytes
  | 0x0d :: 0x0a :: rest => some rest
  | 0x0d :: rest => some rest
  | 0x0a :: rest => some rest
  | _ => none

def dropLastLineEnd? (bytes : Bytes) : Option Bytes :=
  match bytes.reverse with
  | 0x0a :: 0x0d :: front => some front.reverse
  | 0x0a :: front => some front.reverse
  | 0x0d :: front => some front.reverse
  | _ => none

/-- The text from the line on that opens the block. No zero byte may come before it. -/
def findBlock : Bytes → Option Bytes
  | [] => none
  | b :: rest =>
    if b = 0 then none
    else if b = 0x0a ∧ opening.isPrefixOf rest then some rest
    else findBlock rest

def joinLines : Nat → Bytes → Option Bytes
  | 0, _ => none
  | bound + 1, text =>
    if text.length ≤ 64 then some ((dropLastLineEnd? text).getD text)
    else do
      let rest ← dropLineEnd? (text.drop 64)
      return text.take 64 ++ (← joinLines bound rest)

def parse (text : Bytes) : Option (Bytes × Bytes) := do
  let block ← if opening.isPrefixOf text then some text else findBlock text
  let labelled := block.drop opening.length
  let label := labelled.takeWhile (· != 0x2d)
  let body ← dropLineEnd? (← dropPrefix? dashes (labelled.drop label.length))
  let body := (dropLastLineEnd? body).getD body
  let inner ← dropLastLineEnd? (← dropSuffix? (ending ++ label ++ dashes) body)
  let bytes ← Base64.decode (← joinLines (inner.length + 1) inner)
  return (label, bytes)

end Telemetry.Pem
