import LoomHost.Core.Streams
import LoomHost.Lib.Decimal
import LoomHost.Lib.Fields
import LoomHost.Lib.Traverse

/-!
# The Displays a Host Is Asked For

Which options `resolveStreams` accepts, what streams it makes of them, and what it
says otherwise. A list of displays is read from left to right; the grammar says of each
part of it on its own which display it names.

## Main definitions

* `Padded`: A numeral with white space around it.
* `Names`: The display that a part of the list names.
* `Objection`: What is said of a part that names none.
* `Selected`, `Refused`: The displays that are streamed, and the reasons for none.
* `Serves`: A stream is that of a display.

## Theorems

* `numeral_trim_iff`, `parseU32_eq_some_iff`: What is parsed as a display id.
* `selectDisplay_ok_iff`, `selectDisplay_error_iff`: A part of the list.
* `selectDisplays_ok_iff`, `selectDisplays_error_iff`: The list.
* `serves_iff`, `served_iff`: The streams of the selected displays.
* `resolve_cases`, `resolveStreams_exact`: The options as a whole.
-/

namespace LoomHost

namespace Streams

open Session Conn

section Numbers

/-- No character of a numeral is white space. -/
theorem numeral_not_whitespace {tok : List Char} {n : ℤ} (h : Decimal.Numeral tok n) :
    ∀ c ∈ tok, isWhitespace c = false := by
  intro c hc
  rcases h.chars.2 c hc with hdigit | rfl | rfl
  · rw [Char.isDigit, Bool.and_eq_true, decide_eq_true_eq, decide_eq_true_eq] at hdigit
    have hlow : 48 ≤ c.toNat := hdigit.1
    have hhigh : c.toNat ≤ 57 := hdigit.2
    simp only [isWhitespace, Bool.or_eq_false_iff, Bool.and_eq_false_imp, decide_eq_true_eq,
      decide_eq_false_iff_not, not_le]
    omega
  · decide
  · decide

/-- A numeral with white space around it. -/
def Padded (column : List Char) (n : ℤ) : Prop :=
  ∃ before tok after, (∀ c ∈ before, isWhitespace c = true) ∧
    (∀ c ∈ after, isWhitespace c = true) ∧ column = before ++ tok ++ after ∧
    Decimal.Numeral tok n

theorem trim_padding (column : List Char) : ∃ before after : List Char,
    (∀ c ∈ before, isWhitespace c = true) ∧ (∀ c ∈ after, isWhitespace c = true) ∧
      column = before ++ trim column ++ after :=
  Fields.exists_padding column

/-- What is left of a column when it is trimmed is a numeral if it was one. -/
theorem numeral_trim_iff {column : List Char} {n : ℤ} :
    Decimal.Numeral (trim column) n ↔ Padded column n := by
  constructor
  · intro h
    rcases trim_padding column with ⟨before, after, hbefore, hafter, hcolumn⟩
    exact ⟨before, _, after, hbefore, hafter, hcolumn, h⟩
  · intro h
    rcases h with ⟨before, tok, after, hbefore, hafter, rfl, h⟩
    have htok : trim (before ++ tok ++ after) = tok :=
      Fields.strip_padded hbefore (numeral_not_whitespace h) hafter
    rwa [htok]

theorem isDigit_iff (c : Char) : ('0' ≤ c ∧ c ≤ '9') ↔ c.isDigit = true := by
  rw [Char.isDigit, Bool.and_eq_true, decide_eq_true_eq, decide_eq_true_eq]
  exact Iff.rfl

theorem parseDigits_eq (digits : List Char) : ∀ n : ℕ,
    parseDigits n digits = (Decimal.read (2 ^ 32) n digits).map UInt32.ofNat := by
  induction digits with
  | nil => exact fun n => rfl
  | cons c digits ih =>
    intro n
    rw [parseDigits, Decimal.read]
    dsimp only
    by_cases hdigit : c.isDigit = true
    · rw [if_pos ((isDigit_iff c).mpr hdigit), if_pos hdigit]
      by_cases hbound : n * 10 + (c.toNat - 48) < 2 ^ 32
      · rw [if_pos hbound, if_pos hbound, ih]
      · rw [if_neg hbound, if_neg hbound]
        rfl
    · rw [if_neg (fun h => hdigit ((isDigit_iff c).mp h)), if_neg hdigit]
      rfl

theorem parseDigits_eq_some_iff {digits : List Char} {id : UInt32} :
    parseDigits 0 digits = some id ↔ (∀ c ∈ digits, c.isDigit = true) ∧
      Nat.ofDigitChars 10 digits 0 = id.toNat := by
  rw [parseDigits_eq, Option.map_eq_some_iff]
  constructor
  · intro h
    rcases h with ⟨v, hread, rfl⟩
    rcases (Decimal.read_eq_some_iff digits (Nat.two_pow_pos 32)).mp hread with ⟨hdigits, rfl, hv⟩
    exact ⟨hdigits, (UInt32.toNat_ofNat_of_lt' hv).symm⟩
  · intro h
    rcases h with ⟨hdigits, hv⟩
    refine ⟨id.toNat, ?_, UInt32.ofNat_toNat⟩
    exact (Decimal.read_eq_some_iff digits (Nat.two_pow_pos 32)).mpr ⟨hdigits, hv, id.toNat_lt⟩

theorem parseU32_plus {tok : List Char} (hne : tok ≠ []) :
    parseU32 ('+' :: tok) = parseDigits 0 tok := by
  cases tok with
  | nil => exact absurd rfl hne
  | cons c tok => rfl

theorem parseU32_plain {c : Char} {tok : List Char} (hplus : c ≠ '+') :
    parseU32 (c :: tok) = parseDigits 0 (c :: tok) := by
  unfold parseU32
  split
  · rename_i h
    cases h
  · rename_i h
    cases h
    exact absurd rfl hplus
  · rename_i h
    cases h
    exact absurd rfl hplus
  · rfl

/-- Neither sign is a digit. -/
theorem sign_not_mem {digits : List Char} (h : ∀ c ∈ digits, c.isDigit = true) :
    '+' ∉ digits ∧ '-' ∉ digits :=
  ⟨fun hmem => absurd (h _ hmem) (by decide), fun hmem => absurd (h _ hmem) (by decide)⟩

/-- What is parsed as a display id is a numeral that fits, without a minus sign. -/
theorem parseU32_eq_some_iff {tok : List Char} {id : UInt32} :
    parseU32 tok = some id ↔ Decimal.Numeral tok id.toNat ∧ '-' ∉ tok := by
  constructor
  · intro h
    cases tok with
    | nil => cases h
    | cons c tok =>
      -- A plus sign is skipped, a minus sign is no digit.
      by_cases hplus : c = '+'
      · subst hplus
        by_cases hne : tok = []
        · rw [hne] at h
          cases h
        · rw [parseU32_plus hne, parseDigits_eq_some_iff] at h
          rw [← h.2]
          exact ⟨.plus hne h.1, by simp only [↓Char.isValue, List.mem_cons, Char.reduceEq,
            (sign_not_mem h.1).2, or_self, not_false_eq_true]⟩
      · rw [parseU32_plain hplus, parseDigits_eq_some_iff] at h
        rw [← h.2]
        exact ⟨.plain (List.cons_ne_nil _ _) h.1, (sign_not_mem h.1).2⟩
  · intro h
    rcases h with ⟨h, hminus⟩
    -- Without a minus sign two forms of a numeral are left.
    generalize hn : (id.toNat : ℤ) = n at h
    cases h with
    | plain hne hdigits =>
      cases tok with
      | nil => exact absurd rfl hne
      | cons c tok =>
        have hplus : c ≠ '+' := fun heq => (sign_not_mem hdigits).1 (heq ▸ List.mem_cons_self)
        rw [parseU32_plain hplus, parseDigits_eq_some_iff]
        exact ⟨hdigits, by omega⟩
    | plus hne hdigits =>
      rw [parseU32_plus hne, parseDigits_eq_some_iff]
      exact ⟨hdigits, by omega⟩
    | minus => exact absurd List.mem_cons_self hminus

end Numbers

section Select

variable {available : List DisplayInfo} {tok : List Char}

/-- The display id that a part of the list is. -/
def IsId (tok : List Char) (id : UInt32) : Prop := Padded tok id.toNat ∧ '-' ∉ tok

/-- The display that a part of the list names: the first one with the id. -/
def Names (available : List DisplayInfo) (tok : List Char) (d : DisplayInfo) : Prop :=
  IsId tok d.id ∧ ∃ before after, available = before ++ d :: after ∧ ∀ x ∈ before, x.id ≠ d.id

/-- What is said of a part of the list that names no display. -/
inductive Objection (available : List DisplayInfo) (tok : List Char) : String → Prop
  | notNumeric (h : ∀ id, ¬ IsId tok id) :
      Objection available tok ("--displays: '" ++ String.ofList tok ++
        "' is not 'main', 'all', or a numeric display id")
  | notConnected {id : UInt32} (h : IsId tok id) (hnone : ∀ d ∈ available, d.id ≠ id) :
      Objection available tok ("--displays: display id " ++ toString id.toNat ++
        " is not connected (see the list-displays example)")

theorem parse_id_iff {id : UInt32} : parseU32 (trim tok) = some id ↔ IsId tok id := by
  have hminus : '-' ∉ trim tok ↔ '-' ∉ tok := by
    rcases trim_padding tok with ⟨before, after, hbefore, hafter, htok⟩
    have hb : '-' ∉ before := fun h => absurd (hbefore _ h) (by decide)
    have ha : '-' ∉ after := fun h => absurd (hafter _ h) (by decide)
    constructor
    · intro h hmem
      rw [htok] at hmem
      rcases List.mem_append.mp hmem with hmem | hmem
      · exact (List.mem_append.mp hmem).elim hb h
      · exact ha hmem
    · intro h hmem
      apply h
      rw [htok]
      exact List.mem_append_left _ (List.mem_append_right _ hmem)
  rw [parseU32_eq_some_iff, numeral_trim_iff, IsId, hminus]

theorem selectDisplay_ok_iff {d : DisplayInfo} :
    selectDisplay available tok = .ok d ↔ Names available tok d := by
  unfold selectDisplay
  constructor
  · intro h
    cases hid : parseU32 (trim tok) with
    | none =>
      rw [hid] at h
      cases h
    | some id =>
      rw [hid] at h
      dsimp only at h
      cases hfind : available.find? fun d => d.id = id with
      | none =>
        rw [hfind] at h
        cases h
      | some d' =>
        rw [hfind] at h
        cases h
        -- The display found is the first one with the number.
        rcases List.find?_eq_some_iff_append.mp hfind with ⟨hd, before, after, havailable, hbefore⟩
        have hd : d.id = id := by simpa only [decide_eq_true_eq] using hd
        refine ⟨hd ▸ parse_id_iff.mp hid, before, after, havailable, fun x hx => ?_⟩
        rw [hd]
        simpa only [ne_eq, Bool.not_eq_eq_eq_not, Bool.not_true,
          decide_eq_false_iff_not] using hbefore x hx
  · intro h
    rcases h with ⟨hid, before, after, havailable, hbefore⟩
    -- The display named is the one that is found.
    have hfind : available.find? (fun x => x.id = d.id) = some d := by
      rw [List.find?_eq_some_iff_append]
      refine ⟨by simp only [decide_true], before, after, havailable, fun x hx => ?_⟩
      simp only [hbefore x hx, decide_false, Bool.not_false]
    rw [parse_id_iff.mpr hid]
    dsimp only
    rw [hfind]

theorem selectDisplay_error_iff {e : String} :
    selectDisplay available tok = .error e ↔ Objection available tok e := by
  unfold selectDisplay
  constructor
  · intro h
    cases hid : parseU32 (trim tok) with
    | none =>
      rw [hid] at h
      cases h
      -- No number is read, so the token is none.
      refine .notNumeric fun id hid' => ?_
      rw [parse_id_iff.mpr hid'] at hid
      cases hid
    | some id =>
      rw [hid] at h
      dsimp only at h
      cases hfind : available.find? fun d => d.id = id with
      | none =>
        rw [hfind] at h
        cases h
        -- A number is read, and no display has it.
        exact .notConnected (parse_id_iff.mp hid) (by simpa only [ne_eq, List.find?_eq_none,
          decide_eq_true_eq] using hfind)
      | some d =>
        rw [hfind] at h
        cases h
  · intro h
    cases h with
    | notNumeric h =>
      -- Each objection is that of its branch.
      have hid : parseU32 (trim tok) = none := by
        rw [Option.eq_none_iff_forall_ne_some]
        exact fun id hid => h id (parse_id_iff.mp hid)
      rw [hid]
    | notConnected hid hnone =>
      rename_i id
      have hfind : (available.find? fun d => d.id = id) = none := by
        simpa only [List.find?_eq_none, decide_eq_true_eq, ne_eq] using hnone
      rw [parse_id_iff.mpr hid]
      dsimp only
      rw [hfind]

theorem selectDisplays_eq (toks : List (List Char)) : ∀ n : ℕ,
    selectDisplays available toks =
      Traverse.traverse (fun _ => selectDisplay available) n toks := by
  induction toks with
  | nil => exact fun n => rfl
  | cons tok toks ih =>
    intro n
    rw [selectDisplays, Traverse.traverse, ih (n + 1)]
    cases selectDisplay available tok with
    | error e => rfl
    | ok d => cases Traverse.traverse (fun _ => selectDisplay available) (n + 1) toks <;> rfl

theorem selects (available : List DisplayInfo) (n : ℕ) (tok : List Char) (d : DisplayInfo) :
    (fun _ : ℕ => selectDisplay available) n tok = .ok d ↔ Names available tok d :=
  selectDisplay_ok_iff

/-- The displays of a list, if every part of it names one. -/
theorem selectDisplays_ok_iff {toks : List (List Char)} {selected : List DisplayInfo} :
    selectDisplays available toks = .ok selected ↔
      List.Forall₂ (Names available) toks selected := by
  rw [selectDisplays_eq toks 0]
  exact Traverse.traverse_ok_iff (selects available) toks

/-- The first part of a list that names no display is objected to. -/
theorem selectDisplays_error_iff {toks : List (List Char)} {e : String} :
    selectDisplays available toks = .error e ↔
      ∃ before tok after selected, toks = before ++ tok :: after ∧
        List.Forall₂ (Names available) before selected ∧ Objection available tok e := by
  rw [selectDisplays_eq toks 0, Traverse.traverse_error_iff (selects available) toks]
  simp only [selectDisplay_error_iff]

end Select

section Resolve

/-- The parameters of the arguments themselves. -/
def base (args : Args) : MediaParams :=
  { width := args.width.toUInt64, height := args.height.toUInt64 }

/-- The displays that are streamed: one at least, all there are or those of the list. -/
def Selected (available : List DisplayInfo) (args : Args) (selected : List DisplayInfo) : Prop :=
  selected ≠ [] ∧ (args.displays = "all" ∧ selected = available ∨
    args.displays ≠ "all" ∧
      List.Forall₂ (Names available) (args.displays.toList.splitOn ',') selected)

/-- Stream number `i` is the one of a display: it captures the display, from
    ScreenCaptureKit, at the display's size and position, and has the number 0 if it
    is the first one and `i + 1` in 16 bits otherwise. -/
structure Serves (i : ℕ) (d : DisplayInfo) (s : StreamSpec) : Prop where
  streamId : s.streamId.toNat = if i = 0 then 0 else (i + 1) % 65536
  source : s.source = .Sck
  display : s.display = some d.id
  width : s.params.width.toNat = d.width.toNat
  height : s.params.height.toNat = d.height.toNat
  position : (s.x, s.y) = (d.x, d.y)
  codec : s.params.codec = CODEC_HEVC
  refresh : s.params.refresh = 72
  audio : s.params.audio = 0
  bitrateKbps : s.params.bitrateKbps = 60000

/-- The streams are those of the displays, in their order. -/
def Served (selected : List DisplayInfo) (streams : List StreamSpec) : Prop :=
  streams.length = selected.length ∧
    ∀ i s, streams[i]? = some s → ∃ d, selected[i]? = some d ∧ Serves i d s

/-- The reasons for which there are no streams, with what is said. -/
inductive Refused (macos : Bool) (displays : Except String (List DisplayInfo)) (args : Args) :
    String → Prop
  | platform (hmain : args.displays ≠ "main") (hmacos : macos = false) :
      Refused macos displays args
        "--displays: only 'main' is supported on this platform (M6.2 multi-display is macOS/SCK)"
  | source (hmain : args.displays ≠ "main") (hmacos : macos = true) (hsource : args.source ≠ .Sck) :
      Refused macos displays args ("--displays " ++ args.displays ++
        " requires --source sck (multi-display captures physical displays)")
  | enumeration {e : String} (hmain : args.displays ≠ "main") (hmacos : macos = true)
      (hsource : args.source = .Sck) (he : displays = .error e) : Refused macos displays args e
  | objection {e : String} {available selected : List DisplayInfo} {tok : List Char}
      {before after : List (List Char)} (hmain : args.displays ≠ "main") (hmacos : macos = true)
      (hsource : args.source = .Sck) (havailable : displays = .ok available)
      (hall : args.displays ≠ "all")
      (hlist : args.displays.toList.splitOn ',' = before ++ tok :: after)
      (hbefore : List.Forall₂ (Names available) before selected)
      (he : Objection available tok e) : Refused macos displays args e
  | noDisplays (hmain : args.displays ≠ "main") (hmacos : macos = true)
      (hsource : args.source = .Sck) (hall : args.displays = "all") (hnone : displays = .ok []) :
      Refused macos displays args "--displays: no displays available to stream"

variable {macos : Bool} {displays : Except String (List DisplayInfo)} {args : Args}

/-- The number of a stream, as `displayStream` has it. -/
theorem toNat_streamId (i : ℕ) : (if i = 0 then 0 else UInt16.ofNat (i + 1) : UInt16).toNat =
    if i = 0 then 0 else (i + 1) % 65536 := by
  by_cases hzero : i = 0
  · rw [if_pos hzero, if_pos hzero]
    rfl
  · rw [if_neg hzero, if_neg hzero]
    exact UInt16.toNat_ofNat'

/-- `displayStream` is the stream of a display. -/
theorem serves_iff {i : ℕ} {d : DisplayInfo} {s : StreamSpec} :
    Serves i d s ↔ s = displayStream (base args) i d := by
  constructor
  · intro h
    rcases h with ⟨hid, hsource, hdisplay, hwidth, hheight, hposition, hcodec, hrefresh, haudio,
      hbitrate⟩
    rcases s with ⟨streamId, ⟨codec, width, height, refresh, audio, bitrate⟩, source, display, x, y⟩
    -- Each field is determined, the numbers by their values.
    rw [← toNat_streamId i, UInt16.toNat_inj] at hid
    rw [← UInt32.toNat_toUInt64, UInt64.toNat_inj] at hwidth hheight
    rw [Prod.mk.injEq] at hposition
    dsimp only at *
    rw [hid, hsource, hdisplay, hwidth, hheight, hposition.1, hposition.2, hcodec, hrefresh, haudio,
      hbitrate]
    rfl
  · rintro rfl
    exact ⟨toNat_streamId i, rfl, rfl, UInt32.toNat_toUInt64 _, UInt32.toNat_toUInt64 _, rfl, rfl,
      rfl, rfl, rfl⟩

/-- So the streams of the displays are what `resolveStreams` makes of them. -/
theorem served_iff {selected : List DisplayInfo} {streams : List StreamSpec} :
    Served selected streams ↔ streams = selected.mapIdx (displayStream (base args)) := by
  constructor
  · intro h
    rcases h with ⟨hlength, hstreams⟩
    -- The two lists have the same entry at every position.
    refine List.ext_getElem? fun i => ?_
    rw [List.getElem?_mapIdx]
    cases hs : streams[i]? with
    | none =>
      rw [List.getElem?_eq_none_iff, hlength] at hs
      rw [List.getElem?_eq_none hs, Option.map_none]
    | some s =>
      rcases hstreams i s hs with ⟨d, hd, hserves⟩
      rw [hd, Option.map_some, serves_iff.mp hserves]
  · rintro rfl
    refine ⟨List.length_mapIdx, fun i s hs => ?_⟩
    rw [List.getElem?_mapIdx, Option.map_eq_some_iff] at hs
    rcases hs with ⟨d, hd, rfl⟩
    exact ⟨d, hd, serves_iff.mpr rfl⟩

theorem resolve_main (h : args.displays = "main") : resolveStreams macos displays args =
    .ok [{ streamId := 0, params := base args, source := args.source, display := none,
           x := 0, y := 0 }] := by
  unfold resolveStreams
  exact if_pos h

theorem resolve_selected {available selected : List DisplayInfo} (hmain : args.displays ≠ "main")
    (hmacos : macos = true) (hsource : args.source = .Sck) (havailable : displays = .ok available)
    (h : Selected available args selected) : resolveStreams macos displays args =
      .ok (selected.mapIdx (displayStream (base args))) := by
  have hsome : selected.isEmpty = false := List.isEmpty_eq_false_iff.mpr h.1
  unfold resolveStreams
  dsimp only
  rw [if_neg hmain, if_pos hmacos, if_neg (not_not_intro hsource), havailable]
  rcases h.2 with ⟨hall, rfl⟩ | ⟨hall, hlist⟩
  · simp only [if_pos hall, hsome]
    rfl
  · simp only [if_neg hall, selectDisplays_ok_iff.mpr hlist, hsome]
    rfl

theorem resolve_refused {e : String} (h : Refused macos displays args e) :
    resolveStreams macos displays args = .error e := by
  unfold resolveStreams
  dsimp only
  cases h with
  | platform hmain hmacos => rw [if_neg hmain, if_neg (ne_true_of_eq_false hmacos)]
  | source hmain hmacos hsource => rw [if_neg hmain, if_pos hmacos, if_pos hsource]
  | enumeration hmain hmacos hsource he =>
    rw [if_neg hmain, if_pos hmacos, if_neg (not_not_intro hsource), he]
  | objection hmain hmacos hsource havailable hall hlist hbefore he =>
    have hselect := selectDisplays_error_iff.mpr ⟨_, _, _, _, hlist, hbefore, he⟩
    rw [if_neg hmain, if_pos hmacos, if_neg (not_not_intro hsource), havailable]
    simp only [if_neg hall, hselect]
  | noDisplays hmain hmacos hsource hall hnone =>
    rw [if_neg hmain, if_pos hmacos, if_neg (not_not_intro hsource), hnone]
    simp only [if_pos hall, List.isEmpty_nil, if_true]

/-- The options are those of one stream, or select some displays, or are refused. -/
theorem resolve_cases (macos : Bool) (displays : Except String (List DisplayInfo)) (args : Args) :
    args.displays = "main" ∨
      (args.displays ≠ "main" ∧ macos = true ∧ args.source = .Sck ∧ ∃ available selected,
        displays = .ok available ∧ Selected available args selected) ∨
      ∃ e, Refused macos displays args e := by
  by_cases hmain : args.displays = "main"
  · exact Or.inl hmain
  refine Or.inr ?_
  by_cases hmacos : macos = true
  · by_cases hsource : args.source = .Sck
    · cases havailable : displays with
      | error e => exact Or.inr ⟨e, .enumeration hmain hmacos hsource rfl⟩
      | ok available =>
        by_cases hall : args.displays = "all"
        · by_cases hnone : available = []
          · exact Or.inr ⟨_, .noDisplays hmain hmacos hsource hall (hnone ▸ rfl)⟩
          · exact Or.inl ⟨hmain, hmacos, hsource, available, available, rfl, hnone,
              Or.inl ⟨hall, rfl⟩⟩
        · cases hselect : selectDisplays available (args.displays.toList.splitOn ',') with
          | error e =>
            rcases selectDisplays_error_iff.mp hselect with
              ⟨before, tok, after, selected, hlist, hbefore, he⟩
            exact Or.inr ⟨e, .objection hmain hmacos hsource rfl hall hlist hbefore he⟩
          | ok selected =>
            have hlist := selectDisplays_ok_iff.mp hselect
            refine Or.inl ⟨hmain, hmacos, hsource, available, selected, rfl, ?_,
              Or.inr ⟨hall, hlist⟩⟩
            -- A list has one part at least, which names a display.
            intro hnone
            rw [hnone, List.forall₂_nil_right_iff] at hlist
            exact List.splitOn_ne_nil _ _ hlist
    · exact Or.inr ⟨_, .source hmain hmacos hsource⟩
  · exact Or.inr ⟨_, .platform hmain (eq_false_of_ne_true hmacos)⟩

/-- Which streams a host is started with, and what is said if there are none. -/
theorem resolveStreams_exact (macos : Bool) (displays : Except String (List DisplayInfo))
    (args : Args) :
    (∀ streams, resolveStreams macos displays args = .ok streams ↔
      (args.displays = "main" ∧
        streams = [{ streamId := 0, params := base args, source := args.source, display := none,
                     x := 0, y := 0 }]) ∨
      (args.displays ≠ "main" ∧ macos = true ∧ args.source = .Sck ∧ ∃ available selected,
        displays = .ok available ∧ Selected available args selected ∧
        Served selected streams)) ∧
    ∀ e, resolveStreams macos displays args = .error e ↔ Refused macos displays args e := by
  refine ⟨fun streams => ⟨fun h => ?_, fun h => ?_⟩, fun e => ⟨fun h => ?_, resolve_refused⟩⟩
  · rcases resolve_cases macos displays args with
      hmain | ⟨hmain, hmacos, hsource, available, selected, havailable, hselected⟩ | ⟨e, hrefused⟩
    · -- The three cases exclude each other, and each has its own result.
      rw [resolve_main hmain] at h
      exact Or.inl ⟨hmain, (Except.ok.inj h).symm⟩
    · rw [resolve_selected hmain hmacos hsource havailable hselected] at h
      exact Or.inr ⟨hmain, hmacos, hsource, available, selected, havailable, hselected,
        served_iff.mpr (Except.ok.inj h).symm⟩
    · rw [resolve_refused hrefused] at h
      cases h
  · rcases h with
      ⟨hmain, rfl⟩ | ⟨hmain, hmacos, hsource, available, selected, havailable, hselected, hserved⟩
    · -- What is named is what the branch resolves.
      exact resolve_main hmain
    · rw [served_iff.mp hserved]
      exact resolve_selected hmain hmacos hsource havailable hselected
  · rcases resolve_cases macos displays args with
      hmain | ⟨hmain, hmacos, hsource, available, selected, havailable, hselected⟩ | ⟨e', hrefused⟩
    · rw [resolve_main hmain] at h
      -- The two branches that succeed give no error.
      cases h
    · rw [resolve_selected hmain hmacos hsource havailable hselected] at h
      cases h
    · rw [resolve_refused hrefused] at h
      exact Except.error.inj h ▸ hrefused

end Resolve

end Streams

end LoomHost
