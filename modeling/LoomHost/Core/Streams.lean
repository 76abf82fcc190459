import LoomHost.Core.Conn

/-!
# The Streams of a Host

The video streams a host is started with, `resolve_streams` of
`loomd/src/main.rs`: the option `--displays` names one stream, or one for each
of the displays it lists.

The platform is a flag, and what `displays` finds connected is a parameter.

## Main definitions

* `Args`, `DisplayInfo`: The options that are read, and a display.
* `trim`, `parseU32`: Reading a display id.
* `resolveStreams`: The streams.
-/

namespace LoomHost

namespace Streams

open Session Conn Media

structure Args where
  width : UInt32 := 2560
  height : UInt32 := 1440
  source : CaptureSource := .Synthetic
  displays : String := "main"
  deriving Repr, DecidableEq

/-- A display that can be captured. -/
structure DisplayInfo where
  id : UInt32
  /-- Native size in pixels. -/
  width : UInt32
  height : UInt32
  /-- Top-left position in the global display layout. -/
  x : Int32
  y : Int32
  deriving Repr, DecidableEq

/-- White space as in Unicode. -/
def isWhitespace (c : Char) : Bool :=
  let n := c.toNat
  (9 ≤ n && n ≤ 13) || n = 32 || n = 0x85 || n = 0xA0 || n = 0x1680 ||
    (0x2000 ≤ n && n ≤ 0x200A) || n = 0x2028 || n = 0x2029 || n = 0x202F || n = 0x205F ||
    n = 0x3000

/-- Without the white space at both ends. -/
def trim (tok : List Char) : List Char :=
  ((tok.dropWhile isWhitespace).reverse.dropWhile isWhitespace).reverse

/-- Decimal digits, read on after `n`. -/
def parseDigits (n : ℕ) : List Char → Option UInt32
  | [] => some (UInt32.ofNat n)
  | c :: digits =>
    if '0' ≤ c ∧ c ≤ '9' then
      let n := n * 10 + (c.toNat - 48)
      if n < 2 ^ 32 then parseDigits n digits else none
    else none

/-- The decimal parser of the standard library: a sign `+` may come first. -/
def parseU32 (tok : List Char) : Option UInt32 :=
  match tok with
  | [] => none
  | ['+'] => none
  | '+' :: digits => parseDigits 0 digits
  | digits => parseDigits 0 digits

/-- The display a part of the list names. -/
def selectDisplay (available : List DisplayInfo) (tok : List Char) : Except String DisplayInfo :=
  match parseU32 (trim tok) with
  | none =>
    .error ("--displays: '" ++ String.ofList tok ++
      "' is not 'main', 'all', or a numeric display id")
  | some id =>
    match available.find? fun d => d.id = id with
    | some d => .ok d
    | none =>
      .error ("--displays: display id " ++ toString id.toNat ++
        " is not connected (see the list-displays example)")

/-- The displays of the list, in its order. -/
def selectDisplays (available : List DisplayInfo) :
    List (List Char) → Except String (List DisplayInfo)
  | [] => .ok []
  | tok :: toks =>
    match selectDisplay available tok with
    | .ok d =>
      match selectDisplays available toks with
      | .ok out => .ok (d :: out)
      | .error e => .error e
    | .error e => .error e

/-- The stream of display number `i`: 0 for the first one, then 2, 3 and so on,
    since 1 is audio. -/
def displayStream (base : MediaParams) (i : ℕ) (d : DisplayInfo) : StreamSpec :=
  { streamId := if i = 0 then 0 else UInt16.ofNat (i + 1)
    params := { base with width := d.width.toUInt64, height := d.height.toUInt64 }
    source := .Sck
    display := some d.id
    x := d.x
    y := d.y }

/-- Resolve `--displays` into the video streams to serve. -/
def resolveStreams (macos : Bool) (displays : Except String (List DisplayInfo)) (args : Args) :
    Except String (List StreamSpec) :=
  let base : MediaParams := { width := args.width.toUInt64, height := args.height.toUInt64 }
  if args.displays = "main" then
    .ok [{ streamId := 0, params := base, source := args.source, display := none, x := 0, y := 0 }]
  else if macos then
    if args.source ≠ .Sck then
      .error ("--displays " ++ args.displays ++
        " requires --source sck (multi-display captures physical displays)")
    else
      match displays with
      | .error e => .error e
      | .ok available =>
        let selected :=
          if args.displays = "all" then .ok available
          else selectDisplays available (args.displays.toList.splitOn ',')
        match selected with
        | .error e => .error e
        | .ok selected =>
          if selected.isEmpty then .error "--displays: no displays available to stream"
          else .ok (selected.mapIdx (displayStream base))
  else
    .error
      "--displays: only 'main' is supported on this platform (M6.2 multi-display is macOS/SCK)"

end Streams

end LoomHost
