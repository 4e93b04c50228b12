import NetworkProtocols.Tftp.Message

/-!
# The payload of one DATA message

`TFTPSessionRead::sendBlockOfData` and the loop of `TFTPClient::putFile` fill a block
with the same statements, and `TFTPSessionWrite` and `TFTPClient::getFile` store a block
with the same statements; each pair is one definition here.
-/

namespace NetworkProtocols
namespace Tftp

/-- The body of `while (n < 512)`. `buf` is what was written behind the message header,
so `n` is its length; a line feed that did not fit is left pending. -/
def fillNetascii (fs : FileSystem) (inFile : IfStream) (lineFeed : Bool) (buf : Bytes) :
    IfStream × Bool × Bytes :=
  if buf.length < 512 then
    let buf₁ := if lineFeed then buf ++ [LF] else buf
    match inFile.peek fs with
    | (inFile₁, none) => (inFile₁, false, buf₁)
    | (inFile₁, some x) =>
      if x = LF then
        let buf₂ := buf₁ ++ [CR]
        if buf₂.length = 512 then ((inFile₁.get fs).1, true, buf₂)
        else
          let y := (inFile₁.get fs).2.getD 255
          fillNetascii fs (inFile₁.get fs).1 false (buf₂ ++ [y])
      else
        let y := (inFile₁.get fs).2.getD 255
        fillNetascii fs (inFile₁.get fs).1 false (buf₁ ++ [y])
  else (inFile, lineFeed, buf)
termination_by 512 - buf.length
decreasing_by
  all_goals cases lineFeed <;> simp <;> omega

/-- Fill a block of at most 512 bytes from the file. -/
def nextPayload (fs : FileSystem) (mode : TransferMode) (inFile : IfStream) (lineFeed : Bool) :
    IfStream × Bool × Bytes :=
  match mode with
  | .ascii => fillNetascii fs inFile lineFeed []
  | .binary => ((inFile.read fs 512).1, lineFeed, (inFile.read fs 512).2)

/-- The loop that stores a netascii block and drops every carriage return. -/
def storeNetascii (fs : FileSystem) (outFile : OfStream) : Bytes → OfStream × FileSystem
  | [] => (outFile, fs)
  | b :: bytes =>
    if b = CR then storeNetascii fs outFile bytes
    else storeNetascii (outFile.put fs b).2 (outFile.put fs b).1 bytes

def storePayload (fs : FileSystem) (mode : TransferMode) (outFile : OfStream) (payload : Bytes) :
    OfStream × FileSystem :=
  match mode with
  | .ascii => storeNetascii fs outFile payload
  | .binary => outFile.write fs payload

end Tftp
end NetworkProtocols
