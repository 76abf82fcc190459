import LoomHost.Core.Encoders
import LoomHost.Theory.AnnexB
import LoomHost.Theory.Encoders.X265

/-!
# The Encoder on macOS

VideoToolbox gives its access units to a callback, which converts them and leaves
them in a sink, where the call that submitted the picture looks for them. The sink
is memory between the calls, but no call finds anything in it: a call that succeeds
has left it empty. So the wrapper does what one without a sink would do, which looks
at nothing but the callbacks of the call.

A sample buffer is converted if its bytes are length-prefixed units and, for an IDR
with repeated headers, its parameter sets can be read. A client that splits the
result at its start codes finds the parameter sets and then the units.

## Main definitions

* `converted`, `failure`: What a callback leaves in the sink.
* `directStep`: A call, without a sink.
* `Holds`, `unitOf`: A sample buffer that can be converted, and its access unit.

## Theorems

* `foldl_outputCallback`: The sink after some callbacks.
* `sink_invisible`: The wrapper is the one without a sink.
* `setProperties_cases`: When a session can be configured.
* `convert_exact`: What is converted, and what a client finds in it.
-/

namespace LoomHost

namespace Encoders

open Media AnnexB LengthPrefixed

section Sink

variable (repeatHeaders : Bool)

/-- The access unit a callback leaves, if any. -/
def converted (c : Callback) : Option AccessUnit :=
  if c.status ≠ 0 then none
  else
    match c.sampleBuffer with
    | none => none
    | some sampleBuffer => (convert sampleBuffer repeatHeaders).toOption

/-- The status with which a callback fails, if it does. -/
def failure (c : Callback) : Option Int32 :=
  if c.status ≠ 0 then some c.status
  else
    match c.sampleBuffer with
    | none => none
    | some sampleBuffer =>
      match convert sampleBuffer repeatHeaders with
      | .ok _ => none
      | .error (.VideoToolbox status) => some status
      | .error _ => some (-1)

variable {repeatHeaders}

/-- What one callback does to the sink. -/
theorem outputCallback_eq (sink : Sink) (c : Callback) :
    outputCallback sink c =
      { sink with
        au := converted sink.repeatHeaders c <|> sink.au
        error := sink.error <|> failure sink.repeatHeaders c } := by
  unfold outputCallback converted failure Sink.fail
  split_ifs
  · cases sink.error <;> simp only [Option.getD_none, Option.orElse_eq_orElse, Option.orElse_eq_or,
      Option.none_or, Option.or_some, Option.getD_some]
  · cases c.sampleBuffer with
    | none =>
        simp only [Option.orElse_eq_orElse, Option.orElse_eq_or, Option.none_or, Option.or_none]
    | some sampleBuffer =>
        dsimp only
        cases convert sampleBuffer sink.repeatHeaders with
        | ok au =>
            simp only [Except.toOption, Option.orElse_eq_orElse, Option.orElse_eq_or,
              Option.some_or, Option.or_none]
        | error e =>
            -- A callback that fails keeps the first failure.
            cases e <;> cases sink.error <;> rfl

/-- The sink after some callbacks: the last access unit, and the first failure. -/
theorem foldl_outputCallback (called : List Callback) : ∀ sink : Sink,
    called.foldl outputCallback sink =
      { sink with
        au := (called.filterMap (converted sink.repeatHeaders)).getLast? <|> sink.au
        error := sink.error <|> (called.filterMap (failure sink.repeatHeaders)).head? } := by
  induction called with
  | nil =>
      intro sink
      cases sink
      simp only [List.foldl_nil, List.filterMap_nil, List.getLast?_nil, Option.orElse_eq_orElse,
        Option.orElse_eq_or, Option.none_or, List.head?_nil, Option.or_none]
  | cons c called ih =>
      intro sink
      rw [List.foldl_cons, ih, outputCallback_eq]
      dsimp only
      rw [List.filterMap_cons, List.filterMap_cons]
      congr 1
      · cases converted sink.repeatHeaders c with
        | none =>
            simp only [List.getLast?_filterMap, Option.orElse_eq_orElse, Option.orElse_eq_or,
              Option.none_or]
        | some au =>
            dsimp only
            -- A later access unit takes the place of this one.
            rw [List.getLast?_cons]
            cases (called.filterMap (converted sink.repeatHeaders)).getLast? <;> rfl
      · -- An earlier failure is kept.
        cases failure sink.repeatHeaders c <;> cases sink.error <;> rfl

end Sink

section Calls

variable {V P : Type*} (lib : VideoToolbox V P) (repeatHeaders : Bool)

/-- A call, without a sink: the last access unit of its callbacks, unless the library
    or a callback has failed. -/
def directStep (session : V) (c : Call P) : Option (V × List AccessUnit) :=
  match lib.fillPixelBuffer session c.planes with
  | .error _ => none
  | .ok () =>
    let encoded := lib.encodeFrame session c.planes c.pts c.forceIdr
    let completed := lib.completeFrames encoded.2.2
    let called := encoded.2.1 ++ completed.2.1
    if encoded.1 = 0 ∧ completed.1 = 0 ∧ called.filterMap (failure repeatHeaders) = [] then
      some (completed.2.2, (called.filterMap (converted repeatHeaders)).getLast?.toList)
    else none

/-- Nothing is left in the sink. -/
def Empty (sink : Sink) : Prop := sink = { au := none, error := none, repeatHeaders }

variable {lib repeatHeaders} {openSource : Session.MediaParams → Option (Source P)}

/-- The sink after the callbacks of a call that found nothing in it. -/
theorem foldl_of_empty {sink : Sink} (h : Empty repeatHeaders sink) (called : List Callback) :
    called.foldl outputCallback sink =
      { au := (called.filterMap (converted repeatHeaders)).getLast?
        error := (called.filterMap (failure repeatHeaders)).head?, repeatHeaders } := by
  rw [foldl_outputCallback, h]
  simp only [List.getLast?_filterMap, Option.orElse_eq_orElse, Option.orElse_eq_or, Option.or_none,
    List.head?_filterMap, Option.none_or]

/-- A call that finds nothing in the sink does what one without a sink does, and
    leaves nothing in it if it succeeds. -/
theorem step_of_empty {e : VideoToolboxEncoder V} (h : Empty repeatHeaders e.sink) (c : Call P) :
    (callStep (videotoolboxBackend lib openSource) e c).map (fun r => (r.1.session, r.2)) =
        directStep lib repeatHeaders e.session c ∧
      ∀ e' aus, callStep (videotoolboxBackend lib openSource) e c = some (e', aus) →
        Empty repeatHeaders e'.sink := by
  unfold callStep videotoolboxBackend directStep
  dsimp only
  unfold VideoToolboxEncoder.encodeI420
  cases lib.fillPixelBuffer e.session c.planes with
  | error err =>
      simp only [Option.map_none, reduceCtorEq, IsEmpty.forall_iff, implies_true, and_self]
  | ok _ =>
      rcases hencode : lib.encodeFrame e.session c.planes c.pts c.forceIdr with
        ⟨status, called, session⟩
      rcases hcomplete : lib.completeFrames session with ⟨status', called', session'⟩
      -- The callbacks of both library calls come one after the other.
      have hsink := foldl_of_empty h (called ++ called')
      rw [List.foldl_append] at hsink
      simp only [hcomplete, hsink]
      by_cases hstatus : status = 0
      · by_cases hstatus' : status' = 0
        · rcases hfail : (called ++ called').filterMap (failure repeatHeaders) with _ | ⟨s, rest⟩
          · -- Nothing failed: the access unit is taken out of the sink.
            rw [if_neg (not_not.mpr hstatus), if_neg (not_not.mpr hstatus'),
              if_pos ⟨hstatus, hstatus', rfl⟩]
            refine ⟨rfl, fun e' aus heq => ?_⟩
            rw [← (Prod.mk.inj (Option.some.inj heq)).1]
            rfl
          · -- A callback failed, and the call returns its status.
            rw [if_neg (not_not.mpr hstatus), if_neg (not_not.mpr hstatus'),
              if_neg (fun h => nomatch h.2.2)]
            exact ⟨rfl, fun _ _ heq => nomatch heq⟩
        · rw [if_neg (not_not.mpr hstatus), if_pos hstatus', if_neg (fun h => hstatus' h.2.1)]
          exact ⟨rfl, fun _ _ heq => nomatch heq⟩
      · simp only [ne_eq, hstatus, not_false_eq_true, ↓reduceIte, Option.map_none,
          List.filterMap_append, List.append_eq_nil_iff, List.filterMap_eq_nil_iff, false_and,
          reduceCtorEq, IsEmpty.forall_iff, implies_true, and_self]

theorem empty_of_opened {cfg : EncoderConfig} {e : VideoToolboxEncoder V}
    (hopen : (videotoolboxBackend lib openSource).openEncoder cfg = some e) :
    Empty cfg.repeatHeaders e.sink := by
  unfold videotoolboxBackend at hopen
  dsimp only at hopen
  unfold VideoToolboxEncoder.new at hopen
  rcases hcreate : lib.create cfg with ⟨status, _ | session⟩
  · simp only [Except.toOption, hcreate, reduceCtorEq] at hopen
  · simp only [hcreate] at hopen
    split at hopen
    · cases hopen
    · split at hopen
      · cases hopen
      · cases hopen
        rfl

/-- The sink is not to be seen. In every run of calls of an encoder on macOS, what
    each call returns is the last access unit of its own callbacks, and a call fails
    if the library or one of them does: the wrapper is the one without a sink. -/
theorem sink_invisible {cfg : EncoderConfig} {e : VideoToolboxEncoder V}
    (hopen : (videotoolboxBackend lib openSource).openEncoder cfg = some e)
    (calls : List (Call P)) :
    (Machine.exec (callStep (videotoolboxBackend lib openSource)) e calls).map
        (fun r => (r.1.session, r.2)) =
      Machine.exec (directStep lib cfg.repeatHeaders) e.session calls := by
  refine Machine.exec_map VideoToolboxEncoder.session
    (fun e => Empty cfg.repeatHeaders e.sink) (fun e c hempty => (step_of_empty hempty c).1)
    (fun e c e' aus hempty hstep => (step_of_empty hempty c).2 e' aus hstep) calls
    (empty_of_opened hopen)

/-- A session can be configured if it refuses nothing but hints it does not know;
    otherwise the error names the first property it refuses. -/
theorem setProperties_cases (session : V) (cfg : EncoderConfig)
    (properties : List (String × Bool)) :
    (setProperties lib session cfg properties = .ok () ∧ ∀ x ∈ properties,
      lib.setProperty session cfg x.1 = 0 ∨
        x.2 = true ∧ lib.setProperty session cfg x.1 = K_VT_PROPERTY_NOT_SUPPORTED) ∨
    ∃ before name hint after, properties = before ++ (name, hint) :: after ∧
      setProperties lib session cfg properties =
        .error (.VideoToolboxProperty name (lib.setProperty session cfg name)) ∧
      lib.setProperty session cfg name ≠ 0 ∧
      (hint = true → lib.setProperty session cfg name ≠ K_VT_PROPERTY_NOT_SUPPORTED) := by
  induction properties with
  | nil => exact Or.inl ⟨rfl, fun x hx => absurd hx List.not_mem_nil⟩
  | cons x rest ih =>
      rcases x with ⟨name, hint⟩
      rw [setProperties]
      split
      · rename_i hset
        rw [Bool.or_eq_true, Bool.and_eq_true, decide_eq_true_eq, beq_iff_eq] at hset
        -- This one is set, or is a hint that is not supported.
        rcases ih with ⟨hok, hall⟩ | ⟨before, name', hint', after, rfl, herror, hrefused⟩
        · left
          refine ⟨hok, fun y hy => ?_⟩
          rcases List.mem_cons.mp hy with rfl | hy
          · exact hset
          · exact hall y hy
        · right
          exact ⟨(name, hint) :: before, name', hint', after, rfl, herror, hrefused⟩
      · rename_i hrefused
        -- This one is refused, and the others are not tried.
        rw [Bool.or_eq_true, Bool.and_eq_true, decide_eq_true_eq, beq_iff_eq, not_or,
          not_and] at hrefused
        exact Or.inr ⟨[], name, hint, rest, rfl, rfl, hrefused.1, hrefused.2⟩

end Calls

section Convert

/-- The width of the length prefixes, cast to `usize`. -/
def width (format : FormatDescription) : ℕ := format.nalLengthSize.toInt64.toUInt64.toNat

/-- The parameter sets of a format description can be read, and are these. -/
def Sets (format : FormatDescription) (index : ℕ) (sets : List (List UInt8)) : Prop :=
  ∀ i set, sets[i]? = some set → format.parameterSet (index + i) = (0, some set)

theorem sets_cons {format : FormatDescription} {index : ℕ} {set : List UInt8}
    {sets : List (List UInt8)} :
    Sets format index (set :: sets) ↔
      format.parameterSet index = (0, some set) ∧ Sets format (index + 1) sets := by
  constructor
  · intro h
    refine ⟨h 0 set rfl, fun i set' hi => ?_⟩
    have hlater := h (i + 1) set' hi
    rwa [← Nat.add_assoc, Nat.add_right_comm] at hlater
  · rintro ⟨hfirst, hrest⟩ i set' hi
    cases i with
    | zero =>
        rw [List.getElem?_cons_zero, Option.some.injEq] at hi
        exact hi ▸ hfirst
    | succ i =>
        have hlater := hrest i set' hi
        rwa [Nat.add_right_comm, Nat.add_assoc] at hlater

/-- The parameter sets are written one behind the other. -/
theorem parameterSets_eq_ok (format : FormatDescription) (left : ℕ) :
    ∀ (index : ℕ) (data out : List UInt8), parameterSets format index left data = .ok out ↔
      ∃ sets, sets.length = left ∧ Sets format index sets ∧ out = data ++ annexb sets := by
  induction left with
  | zero =>
      intro index data out
      rw [parameterSets]
      constructor
      · intro h
        cases h
        exact ⟨[], rfl, fun i set h => by simp only [List.length_nil, not_lt_zero,
          not_false_eq_true, getElem?_neg, reduceCtorEq] at h, by simp only [annexb,
            List.flatMap_nil, List.append_nil]⟩
      · rintro ⟨sets, hlength, -, rfl⟩
        rw [List.length_eq_zero_iff.mp hlength]
        simp only [annexb, List.flatMap_nil, List.append_nil]
  | succ left ih =>
      intro index data out
      rw [parameterSets]
      -- The set at `index` is the first one there is to read.
      have hfirst :
          (∃ sets, sets.length = left + 1 ∧ Sets format index sets ∧ out = data ++ annexb sets) ↔
            ∃ set sets, format.parameterSet index = (0, some set) ∧ sets.length = left ∧
              Sets format (index + 1) sets ∧ out = data ++ START_CODE ++ set ++ annexb sets := by
        constructor
        · rintro ⟨sets, hlength, hsets, rfl⟩
          cases sets with
          | nil => cases hlength
          | cons set sets =>
              rcases sets_cons.mp hsets with ⟨hset, hrest⟩
              refine ⟨set, sets, hset, Nat.succ.inj hlength, hrest, ?_⟩
              rw [annexb_cons]
              simp only [List.append_assoc]
        · rintro ⟨set, sets, hset, hlength, hrest, rfl⟩
          refine ⟨set :: sets, congrArg Nat.succ hlength, sets_cons.mpr ⟨hset, hrest⟩, ?_⟩
          rw [annexb_cons]
          simp only [List.append_assoc]
      rw [hfirst]
      rcases hset : format.parameterSet index with ⟨status, _ | set⟩
      · simp only [reduceCtorEq, Prod.mk.injEq, and_false, List.append_assoc, false_and,
          exists_const]
      · by_cases hstatus : status = 0
        · simp only [hstatus, ne_eq, not_true_eq_false, ↓reduceIte, List.append_assoc, ih,
            Prod.mk.injEq, Option.some.injEq, true_and, exists_and_left, exists_eq_left']
        · simp only [ne_eq, hstatus, not_false_eq_true, ↓reduceIte, reduceCtorEq, Prod.mk.injEq,
            Option.some.injEq, false_and, List.append_assoc, exists_const]

/-- What a sample buffer holds that can be converted: its units, and its parameter
    sets, if they are to be repeated. -/
def Holds (sampleBuffer : CMSampleBuffer) (repeatHeaders : Bool)
    (nals sets : List (List UInt8)) : Prop :=
  ∃ format src, sampleBuffer.formatDescription = some format ∧
    sampleBuffer.dataBuffer = some ⟨0, some src⟩ ∧ format.status = 0 ∧
    Avcc (width format) src nals ∧
    if (nals.any fun nal => isIdr (typeOf nal)) && repeatHeaders then
      sets.length = format.count ∧ Sets format 0 sets
    else sets = []

/-- The access unit of these units, behind these parameter sets. -/
def unitOf (nals sets : List (List UInt8)) : AccessUnit :=
  { keyframe := nals.any fun nal => isIdr (typeOf nal), data := annexb (sets ++ nals) }

/-- The units of a string of them, converted. -/
theorem append_of_avcc {n : ℕ} (hn : n ≤ 8) {src : List UInt8} {nals : List (List UInt8)}
    (h : Avcc n src nals) :
    append src n [] = (.ok (nals.any fun nal => isIdr (typeOf nal)), annexb nals) := by
  have hrun := append_units n hn h [] false []
  rw [List.nil_append, List.length_nil, List.nil_append, Bool.false_or] at hrun
  rw [append, hrun]

/-- What is written for some units, with the parameter sets of the format. -/
def written (format : FormatDescription) (repeatHeaders : Bool) (nals : List (List UInt8)) :
    Except EncodeError AccessUnit :=
  if !((nals.any fun nal => isIdr (typeOf nal)) && repeatHeaders) then
    .ok { keyframe := nals.any fun nal => isIdr (typeOf nal), data := annexb nals }
  else
    match parameterSets format 0 format.count [] with
    | .error e => .error e
    | .ok data =>
      .ok { keyframe := nals.any fun nal => isIdr (typeOf nal), data := data ++ annexb nals }

theorem written_eq_ok (format : FormatDescription) (repeatHeaders : Bool)
    (nals : List (List UInt8)) (au : AccessUnit) :
    written format repeatHeaders nals = .ok au ↔ ∃ sets,
      (if (nals.any fun nal => isIdr (typeOf nal)) && repeatHeaders then
        sets.length = format.count ∧ Sets format 0 sets else sets = []) ∧
      au = unitOf nals sets := by
  unfold written
  by_cases hrepeat : ((nals.any fun nal => isIdr (typeOf nal)) && repeatHeaders) = true
  · simp only [hrepeat, Bool.not_true, Bool.false_eq_true, if_false, if_true]
    -- The parameter sets are read, all of them or none.
    have hread := parameterSets_eq_ok format format.count 0 []
    cases hsets : parameterSets format 0 format.count [] with
    | error e =>
        constructor
        · intro h
          cases h
        · rintro ⟨sets, ⟨hlength, hsets'⟩, -⟩
          have hok := (hread _).mpr ⟨sets, hlength, hsets', rfl⟩
          -- A set that is not there fails the conversion.
          rw [hsets] at hok
          cases hok
    | ok data =>
        have hdata (sets : List (List UInt8)) (hlength : sets.length = format.count)
            (hsets' : Sets format 0 sets) : data = annexb sets := by
          have hok := (hread _).mpr ⟨sets, hlength, hsets', rfl⟩
          rw [hsets, List.nil_append] at hok
          exact Except.ok.inj hok
        constructor
        · intro h
          rcases (hread data).mp hsets with ⟨sets, hlength, hsets', rfl⟩
          refine ⟨sets, ⟨hlength, hsets'⟩, ?_⟩
          rw [← Except.ok.inj h, unitOf, annexb, annexb, annexb, List.flatMap_append,
            List.nil_append]
        · rintro ⟨sets, ⟨hlength, hsets'⟩, rfl⟩
          rw [hdata sets hlength hsets', unitOf, annexb, annexb, annexb, List.flatMap_append]
  · -- The headers are not repeated.
    simp only [Bool.not_eq_true] at hrepeat
    simp only [hrepeat, Bool.not_false, if_true, Bool.false_eq_true, if_false, exists_eq_left]
    rw [Except.ok.injEq, unitOf, List.nil_append, eq_comm]

/-- The conversion is exact: a sample buffer is converted if it holds length-prefixed
    units, and parameter sets where they are to be repeated, and the access unit is
    that of those. -/
theorem convert_eq_ok {sampleBuffer : CMSampleBuffer}
    (hwidth : ∀ format, sampleBuffer.formatDescription = some format →
      1 ≤ width format ∧ width format ≤ 4) (repeatHeaders : Bool) (au : AccessUnit) :
    convert sampleBuffer repeatHeaders = .ok au ↔
      ∃ nals sets, Holds sampleBuffer repeatHeaders nals sets ∧ au = unitOf nals sets := by
  unfold convert Holds
  rcases sampleBuffer with ⟨_ | format, _ | ⟨status, _ | src⟩⟩
  · simp only [reduceCtorEq, Bool.and_eq_true, List.any_eq_true, false_and, and_self, exists_const,
      exists_false]
  · simp only [reduceCtorEq, Option.some.injEq, BlockBuffer.mk.injEq, and_false, Bool.and_eq_true,
      List.any_eq_true, false_and, and_self, exists_const, exists_false]
  · simp only [reduceCtorEq, Option.some.injEq, BlockBuffer.mk.injEq, Bool.and_eq_true,
      List.any_eq_true, false_and, exists_const, exists_false]
  · simp only [reduceCtorEq, Option.some.injEq, Bool.and_eq_true, List.any_eq_true, false_and,
      and_false, exists_const, exists_false]
  · simp only [reduceCtorEq, Option.some.injEq, BlockBuffer.mk.injEq, and_false, Bool.and_eq_true,
      List.any_eq_true, false_and, exists_const, exists_false]
  · rcases hwidth format rfl with ⟨hpos, hle⟩
    by_cases hstatus : status = 0
    · by_cases hformat : format.status = 0
      · have hcast : format.nalLengthSize.toInt64.toUInt64.toNat = width format := rfl
        simp only [hstatus, hformat, hcast, ne_eq, not_true_eq_false, if_false]
        by_cases hunits : ∃ nals, Avcc (width format) src nals
        · rcases hunits with ⟨nals, hnals⟩
          rw [append_of_avcc (by omega) hnals]
          refine (written_eq_ok format repeatHeaders nals au).trans ?_
          constructor
          · rintro ⟨sets, hsets, rfl⟩
            exact ⟨nals, sets, ⟨format, src, rfl, rfl, hformat, hnals, hsets⟩, rfl⟩
          · rintro ⟨nals', sets, ⟨format', src', hformat', hdata, -, hnals', hsets⟩, rfl⟩
            cases hformat'
            cases hdata
            -- The bytes are read in one way only.
            rw [hnals.unique nals' hnals'] at hsets ⊢
            exact ⟨sets, hsets, rfl⟩
        · rcases happend : append src (width format) [] with ⟨e | k, body⟩
          · simp only [reduceCtorEq, false_iff]
            rintro ⟨nals, sets, ⟨format', src', hformat', hdata, -, hnals, -⟩, -⟩
            cases hformat'
            cases hdata
            exact hunits ⟨nals, hnals⟩
          · -- What is accepted are units.
            have hread := units_of_append (width format) (by omega) src 0 false [] k
              (congrArg Prod.fst happend)
            rw [List.drop_zero] at hread
            exact absurd hread hunits
      · dsimp only
        rw [if_neg (not_not.mpr hstatus), if_pos hformat]
        refine iff_of_false nofun ?_
        rintro ⟨nals, sets, ⟨format', src', hformat', -, hstatus', -⟩, -⟩
        exact hformat (Option.some.inj hformat' ▸ hstatus')
    · simp only [ne_eq, hstatus, not_false_eq_true, ↓reduceIte, reduceCtorEq, Option.some.injEq,
        BlockBuffer.mk.injEq, false_and, Bool.and_eq_true, List.any_eq_true, and_false,
        exists_const, exists_false]

/-- A stream written from units is split back into them, and the scan reads their
    types. -/
theorem split_annexb (nals : List (List UInt8)) (hclean : ∀ nal ∈ nals, Clean nal) :
    split (annexb nals) = nals ∧ nalTypes (annexb nals) = nals.map typeOf := by
  have hcodes := startCodes_annexb nals [] hclean
  have hcut := cut_annexb nals []
  have htypes := types_annexb nals [] fun nal hmem => (hclean nal hmem).1
  rw [List.nil_append, List.length_nil] at hcodes hcut htypes
  constructor
  · rw [split, startCodes, hcodes, hcut]
  · rw [nalTypes_eq, startCodes, hcodes, htypes]

/-- What a client finds. A sample buffer is converted exactly if it holds
    length-prefixed units and, for an IDR with repeated headers, its parameter sets
    can be read. The result is a keyframe exactly if one of the units is an IDR
    slice, and if no start code overlaps a unit or a set, it is split into the sets
    and the units. -/
theorem convert_exact {sampleBuffer : CMSampleBuffer}
    (hwidth : ∀ format, sampleBuffer.formatDescription = some format →
      1 ≤ width format ∧ width format ≤ 4) (repeatHeaders : Bool) (au : AccessUnit) :
    (convert sampleBuffer repeatHeaders = .ok au ↔
      ∃ nals sets, Holds sampleBuffer repeatHeaders nals sets ∧ au = unitOf nals sets) ∧
    ∀ nals sets, au = unitOf nals sets →
      (au.keyframe = true ↔ ∃ nal ∈ nals, typeOf nal = 19 ∨ typeOf nal = 20) ∧
      ((∀ nal ∈ sets ++ nals, Clean nal) →
        split au.data = sets ++ nals ∧ nalTypes au.data = (sets ++ nals).map typeOf) := by
  refine ⟨convert_eq_ok hwidth repeatHeaders au, fun nals sets hunit => ?_⟩
  rw [hunit]
  refine ⟨?_, split_annexb (sets ++ nals)⟩
  unfold unitOf
  rw [List.any_eq_true]
  simp only [isIdr, AnnexB.NAL_IDR_W_RADL, AnnexB.NAL_IDR_N_LP, Bool.or_eq_true, beq_iff_eq]

/-- An IDR slice, with one parameter set. -/
def sampleBuffer : CMSampleBuffer :=
  { formatDescription := some
      { status := 0, count := 1, nalLengthSize := 2,
        parameterSet := fun _ => (0, some [0x40, 0x01]) }
    dataBuffer := some ⟨0, some [0, 2, 0x26, 0x01]⟩ }

theorem sampleBuffer_width : ∀ format, sampleBuffer.formatDescription = some format →
    1 ≤ width format ∧ width format ≤ 4 := by
  intro format hformat
  cases hformat
  decide

theorem convert_exact_idr : ∃ au, convert sampleBuffer true = .ok au ∧
    split au.data = [[0x40, 0x01], [0x26, 0x01]] ∧ nalTypes au.data = [32, 19] := by
  have hholds : Holds sampleBuffer true [[0x26, 0x01]] [[0x40, 0x01]] := by
    refine ⟨_, _, rfl, rfl, rfl,
      units_of_fields (BigEndian.toBE 2) [[0x26, 0x01]] (by decide), ?_⟩
    rw [if_pos (by decide)]
    exact ⟨rfl, sets_cons.mpr ⟨rfl, fun i set h => by simp only [List.length_nil, not_lt_zero,
      not_false_eq_true, getElem?_neg, reduceCtorEq] at h⟩⟩
  have hclean : ∀ nal ∈ [[(0x40 : UInt8), 0x01]] ++ [[0x26, 0x01]], Clean nal := by
    intro nal hmem
    have hcases : nal = [0x40, 0x01] ∨ nal = [0x26, 0x01] := by
      simpa only [List.cons_append, List.nil_append, List.mem_cons, List.not_mem_nil,
        or_false] using hmem
    unfold Clean
    rcases hcases with rfl | rfl <;> decide
  have hexact := convert_exact sampleBuffer_width true (unitOf [[0x26, 0x01]] [[0x40, 0x01]])
  exact ⟨_, hexact.1.mpr ⟨_, _, hholds, rfl⟩, (hexact.2 _ _ rfl).2 hclean⟩

/-- A session that calls back when it is flushed, and drops its second frame. -/
def sampleSession : VideoToolbox ℕ Unit :=
  { create := fun _ => (0, some 0)
    setProperty := fun _ _ _ => 0
    fillPixelBuffer := fun _ _ => .ok ()
    encodeFrame := fun n _ _ _ => (0, [], n + 1)
    completeFrames := fun n => (0, [⟨0, if n = 2 then none else some sampleBuffer⟩], n) }

/-- The second of three frames is dropped. -/
theorem sink_invisible_dropped : ∃ e,
    (videotoolboxBackend sampleSession fun _ => none).openEncoder (encoderConfig 2 2 72 1000) =
      some e ∧
    (Machine.exec (callStep (videotoolboxBackend sampleSession fun _ => none)) e
        [⟨(), 0, false⟩, ⟨(), 1, true⟩, ⟨(), 2, false⟩]).map (fun r => (r.1.session, r.2)) =
      Machine.exec (directStep sampleSession true) 0
        [⟨(), 0, false⟩, ⟨(), 1, true⟩, ⟨(), 2, false⟩] := by
  have hopen : ∃ e, (videotoolboxBackend sampleSession fun _ => none).openEncoder
      (encoderConfig 2 2 72 1000) = some e ∧ e.session = 0 := ⟨_, rfl, rfl⟩
  rcases hopen with ⟨e, hopen, hsession⟩
  have hsame := sink_invisible hopen [⟨(), 0, false⟩, ⟨(), 1, true⟩, ⟨(), 2, false⟩]
  rw [hsession] at hsame
  exact ⟨e, hopen, hsame⟩

end Convert

end Encoders

end LoomHost
