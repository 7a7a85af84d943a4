import FrigateXdna.Python.JsonText
import FrigateXdna.Python.Lines

/-!
# The timeline file, torn or whole

The timeline of a stability run is a file of JSON lines.  A crash may leave any bytes behind
the records that were appended; the reader decodes the whole file, splits it into lines, and
skips the lines that are no JSON.

Main results:

- Definition {lit}`Journal.timeline`: append a record.
- Definition {lit}`readTimeline`: read what can be read.
- Theorem {lit}`readTimeline_torn`: what reading a torn file gives.
- Theorem {lit}`readTimeline_prefix_iff`: when the appended records come first.
-/

namespace FrigateXdna
namespace Observability

open Python

/-! ## Writing -/

/-- The arguments of a call of {lit}`StabilityJournal.timeline`, with the time that
{lit}`time.time()` returns in it. -/
structure TimelineCall where
  wallTime : PyFloat
  phase : PyStr
  step : PyStr
  state : PyStr
  fields : List (PyStr × Json)
  hwallTime : wallTime.IsValue
  hphase : ∀ c ∈ phase, IsCodePoint c
  hstep : ∀ c ∈ step, IsCodePoint c
  hstate : ∀ c ∈ state, IsCodePoint c
  hfields : (Json.obj fields).WellFormed

/-- {lit}`d.update(fields)`. -/
def updateFields (fields : List (PyStr × Json)) (d : List (PyStr × Json)) :
    List (PyStr × Json) :=
  fields.foldl (fun d f => setField f.1 f.2 d) d

/-- The record of a call. -/
def TimelineCall.record (call : TimelineCall) (sequence : Nat) : Json :=
  .obj (updateFields call.fields
    [(py "sequence", .int sequence), (py "wall_time", .float call.wallTime),
      (py "phase", .str call.phase), (py "step", .str call.step), (py "state", .str call.state)])

/-- {lit}`json.dumps(value, sort_keys=True)` as a call that can fail: it raises on values that
nest deeper than {lit}`limit` and on integers with too many digits. -/
def tryDumps (limit : Nat) (j : Json) : Option PyStr :=
  if j.depth ≤ limit ∧ j.IntsPrint then some (dumps j) else none

/-- A {lit}`StabilityJournal`: its counter, and the bytes of its timeline file. -/
structure Journal where
  seq : Nat := 0
  file : Bytes := []

/-- The bytes of printable text. -/
def asciiBytes (s : PyStr) : Bytes :=
  s.map UInt8.ofNat

/-- {lit}`StabilityJournal.timeline`: the record, when it was appended.  The number is taken
before the record is printed. -/
def Journal.timeline (limit : Nat) (journal : Journal) (call : TimelineCall) :
    Journal × Option Json :=
  let seq := journal.seq + 1
  let record := call.record seq
  match tryDumps limit record with
  | none => ({ journal with seq }, none)
  | some text => ({ seq, file := journal.file ++ asciiBytes (text ++ [10]) }, some record)

/-- One call after another: the journal, and the records that were appended. -/
def Journal.appendAll (limit : Nat) : Journal → List TimelineCall → Journal × List Json
  | journal, [] => (journal, [])
  | journal, call :: calls =>
      let (next, record) := journal.timeline limit call
      let (last, records) := next.appendAll limit calls
      (last, record.toList ++ records)

/-! ## Reading -/

/-- The line ends of a file opened as text: each becomes one line feed. -/
def universalNewlines : PyStr → PyStr
  | 13 :: 10 :: rest => 10 :: universalNewlines rest
  | 13 :: rest => 10 :: universalNewlines rest
  | c :: rest => c :: universalNewlines rest
  | [] => []

/-- The lines of a timeline, parsed: blank lines and lines that are no JSON are skipped, and
a {lit}`RecursionError` is raised. -/
def readLines (limit : Nat) : List PyStr → Except PyExc (List Json)
  | [] => .ok []
  | line :: lines =>
      if (strip line).isEmpty then readLines limit lines
      else
        match loadsText limit line with
        | .ok j => (readLines limit lines).map (j :: ·)
        | .error .valueError => readLines limit lines
        | .error e => .error e

/-- {lit}`read_timeline`; there may be no file.  A {lit}`UnicodeDecodeError` is a
{lit}`ValueError`, which {lit}`open` and {lit}`read` are not guarded against. -/
def readTimeline (limit : Nat) (file : Option Bytes) : Except PyExc (List Json) :=
  match file with
  | none => .ok []
  | some data =>
      match utf8Decode data with
      | none => .error .valueError
      | some text => readLines limit (splitLines (universalNewlines text))

/-! ## Records -/

/-- The keys after an assignment: the same, or one more. -/
theorem setField_keys (k : PyStr) (v : Json) (d : List (PyStr × Json)) :
    (setField k v d).map Prod.fst =
      if k ∈ d.map Prod.fst then d.map Prod.fst else d.map Prod.fst ++ [k] := by
  induction d with
  | nil => rfl
  | cons f rest ih =>
      obtain ⟨l, w⟩ := f
      by_cases hl : l = k
      · subst hl
        simp [setField]
      · rw [setField, if_neg hl, List.map_cons, ih]
        by_cases hmem : k ∈ rest.map Prod.fst
        · simp [hmem]
        · simp [hmem, Ne.symm hl]

/-- A field after an assignment was there or is the assigned one. -/
theorem mem_setField {f : PyStr × Json} {k : PyStr} {v : Json} {d : List (PyStr × Json)}
    (h : f ∈ setField k v d) : f ∈ d ∨ f = (k, v) := by
  induction d with
  | nil => exact Or.inr (List.mem_singleton.mp h)
  | cons g rest ih =>
      obtain ⟨l, w⟩ := g
      by_cases hl : l = k
      · subst hl
        rw [setField, if_pos rfl] at h
        rcases List.mem_cons.mp h with rfl | h
        · exact Or.inr rfl
        · exact Or.inl (List.mem_cons_of_mem _ h)
      · rw [setField, if_neg hl] at h
        rcases List.mem_cons.mp h with rfl | h
        · exact Or.inl List.mem_cons_self
        · exact (ih h).imp (List.mem_cons_of_mem _) id

/-- An assignment keeps a dictionary well-formed. -/
theorem wellFormed_setField {k : PyStr} {v : Json} {d : List (PyStr × Json)}
    (hk : ∀ c ∈ k, IsCodePoint c) (hv : v.WellFormed) (h : (Json.obj d).WellFormed) :
    (Json.obj (setField k v d)).WellFormed := by
  cases h with
  | obj hkeys htexts hvalues =>
      refine .obj ?_ (fun f hf => ?_) fun f hf => ?_
      · rw [setField_keys]
        split
        · exact hkeys
        · rename_i hnew
          exact List.nodup_append.mpr ⟨hkeys, List.nodup_singleton k, fun l hl m hm heq =>
            hnew (List.mem_singleton.mp hm ▸ heq ▸ hl)⟩
      · rcases mem_setField hf with hf | rfl
        · exact htexts f hf
        · exact hk
      · rcases mem_setField hf with hf | rfl
        · exact hvalues f hf
        · exact hv

/-- An update keeps a dictionary well-formed. -/
theorem wellFormed_updateFields {fields d : List (PyStr × Json)}
    (hfields : ∀ f ∈ fields, (∀ c ∈ f.1, IsCodePoint c) ∧ f.2.WellFormed)
    (h : (Json.obj d).WellFormed) : (Json.obj (updateFields fields d)).WellFormed := by
  induction fields generalizing d with
  | nil => exact h
  | cons f rest ih =>
      obtain ⟨hk, hv⟩ := hfields f List.mem_cons_self
      exact ih (fun g hg => hfields g (List.mem_cons_of_mem f hg)) (wellFormed_setField hk hv h)

/-- **A record is well-formed.** -/
theorem TimelineCall.record_wellFormed (call : TimelineCall) (sequence : Nat) :
    (call.record sequence).WellFormed := by
  have hkeys : [py "sequence", py "wall_time", py "phase", py "step", py "state"].Nodup := by
    decide
  have hfields := call.hfields
  cases hfields with
  | obj _ htexts hvalues =>
      refine wellFormed_updateFields (fun f hf => ⟨htexts f hf, hvalues f hf⟩)
        (.obj hkeys ?_ ?_)
      · simp only [List.forall_mem_cons]
        exact ⟨by decide, by decide, by decide, by decide, by decide,
          fun _ hf => absurd hf List.not_mem_nil⟩
      · simp only [List.forall_mem_cons]
        exact ⟨.int _, .float call.hwallTime, .str call.hphase, .str call.hstep,
          .str call.hstate, fun _ hf => absurd hf List.not_mem_nil⟩

/-- A record that was appended: it is well-formed, and {lit}`json.dumps` printed it. -/
structure Appended (limit : Nat) (record : Json) : Prop where
  wellFormed : record.WellFormed
  ints : record.IntsPrint
  depth : record.depth ≤ limit
  isObj : record.isObj = true

/-- The bytes of a record in the file. -/
def recordBytes (record : Json) : Bytes :=
  asciiBytes (dumps record ++ [10])

/-- What a call appends. -/
theorem Journal.timeline_spec (limit : Nat) (journal : Journal) (call : TimelineCall) :
    ((journal.timeline limit call).1.file = journal.file ∧
        (journal.timeline limit call).2 = none) ∨
      ∃ record, Appended limit record ∧ (journal.timeline limit call).2 = some record ∧
        (journal.timeline limit call).1.file = journal.file ++ recordBytes record := by
  unfold Journal.timeline tryDumps
  dsimp only
  by_cases h : (call.record (journal.seq + 1)).depth ≤ limit ∧
      (call.record (journal.seq + 1)).IntsPrint
  · rw [if_pos h]
    exact Or.inr ⟨_, ⟨call.record_wellFormed _, h.2, h.1, rfl⟩, rfl, rfl⟩
  · rw [if_neg h]
    exact Or.inl ⟨rfl, rfl⟩

/-- **The file is the records**, one after another. -/
theorem Journal.appendAll_spec (limit : Nat) (journal : Journal) (calls : List TimelineCall) :
    (journal.appendAll limit calls).1.file =
        journal.file ++ (journal.appendAll limit calls).2.flatMap recordBytes ∧
      ∀ record ∈ (journal.appendAll limit calls).2, Appended limit record := by
  induction calls generalizing journal with
  | nil =>
      rw [appendAll]
      exact ⟨(List.append_nil _).symm, fun _ h => absurd h List.not_mem_nil⟩
  | cons call calls ih =>
      obtain ⟨hfile, hrecords⟩ := ih (journal.timeline limit call).1
      have hstep : journal.appendAll limit (call :: calls) =
          (((journal.timeline limit call).1.appendAll limit calls).1,
            (journal.timeline limit call).2.toList ++
              ((journal.timeline limit call).1.appendAll limit calls).2) := rfl
      rw [hstep]
      rcases journal.timeline_spec limit call with ⟨hsame, hnone⟩ | ⟨record, hrecord, hsome, hgrown⟩
      · rw [hnone, hfile, hsame]
        exact ⟨rfl, hrecords⟩
      · rw [hsome, hfile, hgrown, List.append_assoc]
        exact ⟨rfl, List.forall_mem_cons.mpr ⟨hrecord, hrecords⟩⟩

/-! ## Lines -/

/-- No printable character ends a line. -/
theorem isLineEnd_of_plain {c : Nat} (h : IsPlain c) : isLineEnd c = false := by
  obtain ⟨hlow, hhigh⟩ := h
  simp [isLineEnd]
  omega

/-- A line is taken up to its line feed. -/
theorem splitLinesGo_append {s : PyStr} (hs : ∀ c ∈ s, IsPlain c) (rest line : PyStr) :
    splitLinesGo (s ++ 10 :: rest) line = (line.reverse ++ s) :: splitLinesGo rest [] := by
  induction s generalizing line with
  | nil =>
      rw [List.nil_append, splitLinesGo, List.append_nil]
      · rfl
      · intro more h
        contradiction
  | cons c cs ih =>
      have hc := hs c List.mem_cons_self
      rw [List.cons_append, splitLinesGo, isLineEnd_of_plain hc,
        if_neg Bool.false_ne_true, ih fun d hd => hs d (List.mem_cons_of_mem c hd),
        List.reverse_cons, List.append_assoc]
      · rfl
      · rintro more rfl
        exact absurd hc (by decide)

/-- The line end of a record stays, and so does its text. -/
theorem universalNewlines_append {s : PyStr} (hs : ∀ c ∈ s, IsPlain c) (rest : PyStr) :
    universalNewlines (s ++ 10 :: rest) = s ++ 10 :: universalNewlines rest := by
  induction s with
  | nil =>
      rw [List.nil_append, universalNewlines, List.nil_append]
      · intro more h
        contradiction
      · intro h
        contradiction
  | cons c cs ih =>
      have hc := hs c List.mem_cons_self
      have hne : c ≠ 13 := by
        rintro rfl
        exact absurd hc (by decide)
      rw [List.cons_append, universalNewlines, ih fun d hd => hs d (List.mem_cons_of_mem c hd),
        List.cons_append]
      · intro more h
        exact fun heq => absurd h hne
      · exact hne

/-- The text of the records in the file. -/
def recordsText (records : List Json) : PyStr :=
  records.flatMap fun record => dumps record ++ [10]

/-- The records are decoded to their text, and what follows them on its own. -/
theorem utf8Decode_records (records : List Json) (trailing : Bytes) :
    utf8Decode (records.flatMap recordBytes ++ trailing) =
      (utf8Decode trailing).map (recordsText records ++ ·) := by
  have hbytes : records.flatMap recordBytes = asciiBytes (recordsText records) := by
    rw [asciiBytes, recordsText, List.map_flatMap]
    rfl
  have hsmall : ∀ c ∈ recordsText records, c < 128 := by
    intro c hc
    obtain ⟨record, -, hc⟩ := List.mem_flatMap.mp hc
    rcases List.mem_append.mp hc with hc | hc
    · have := (dumps_plain record c hc).2
      omega
    · obtain rfl := List.mem_singleton.mp hc
      decide
  have hround : ∀ c ∈ recordsText records, (UInt8.ofNat c).toNat = c := fun c hc => by
    have := hsmall c hc
    rw [UInt8.toNat_ofNat']
    omega
  have hmap : (asciiBytes (recordsText records)).map UInt8.toNat = recordsText records := by
    rw [asciiBytes, List.map_map]
    exact (List.map_congr_left hround).trans (List.map_id' _)
  rw [hbytes, utf8Decode_ascii_append]
  · rw [hmap]
  · intro b hb
    obtain ⟨c, hc, rfl⟩ := List.mem_map.mp hb
    rw [hround c hc]
    exact hsmall c hc

/-- The lines of the records, and then the lines of what follows them. -/
theorem splitLines_records (records : List Json) (text : PyStr) :
    splitLines (universalNewlines (recordsText records ++ text)) =
      records.map dumps ++ splitLines (universalNewlines text) := by
  induction records with
  | nil => rfl
  | cons record records ih =>
      have htext : recordsText (record :: records) ++ text =
          dumps record ++ 10 :: (recordsText records ++ text) := by
        simp [recordsText]
      rw [htext, universalNewlines_append (dumps_plain record), splitLines,
        splitLinesGo_append (dumps_plain record), List.reverse_nil, List.nil_append, List.map_cons,
        List.cons_append]
      exact congrArg _ ih

/-- Text with a character that is no white space is not blank. -/
theorem strip_isEmpty_of_mem {c : Nat} (hc : isSpace c = false) {s : PyStr} (h : c ∈ s) :
    (strip s).isEmpty = false := by
  have hkeep : ∀ {t : PyStr}, c ∈ t → c ∈ t.dropWhile isSpace := by
    intro t ht
    induction t with
    | nil => exact ht
    | cons d ds ih =>
        rw [List.dropWhile_cons]
        by_cases hd : isSpace d = true
        · rw [if_pos hd]
          rcases List.mem_cons.mp ht with rfl | ht
          · exact absurd hd (by simp [hc])
          · exact ih ht
        · rwa [if_neg hd]
  have hmem : c ∈ strip s := by
    rw [strip, List.mem_reverse]
    exact hkeep (List.mem_reverse.mpr (hkeep h))
  cases hstrip : strip s with
  | nil => exact absurd (hstrip ▸ hmem) List.not_mem_nil
  | cons d ds => rfl

/-- A record is no blank line. -/
theorem strip_dumps {record : Json} (h : record.isObj = true) :
    (strip (dumps record)).isEmpty = false := by
  cases record with
  | obj fields => exact strip_isEmpty_of_mem (c := 123) (by decide) List.mem_cons_self
  | _ => contradiction

/-- **The records are read back**, and then the lines that follow them. -/
theorem readLines_records (limit : Nat) {records : List Json}
    (h : ∀ record ∈ records, record.WellFormed ∧ record.IntsPrint ∧ record.isObj = true)
    (lines : List PyStr) :
    readLines limit (records.map dumps ++ lines) =
      if ∀ record ∈ records, record.depth ≤ limit then
        (readLines limit lines).map (records.map Json.reread ++ ·)
      else .error .recursionError := by
  induction records with
  | nil =>
      rw [if_pos fun _ hr => absurd hr List.not_mem_nil]
      cases hlines : readLines limit lines <;> simp [hlines, Except.map]
  | cons record records ih =>
      obtain ⟨hwf, hints, hobj⟩ := h record List.mem_cons_self
      rw [List.map_cons, List.cons_append, readLines, strip_dumps hobj,
        if_neg Bool.false_ne_true, loadsText_dumps hwf hints,
        ih fun r hr => h r (List.mem_cons_of_mem record hr)]
      by_cases hd : record.depth ≤ limit
      · rw [if_pos hd]
        by_cases hrest : ∀ r ∈ records, r.depth ≤ limit
        · have hall : ∀ r ∈ record :: records, r.depth ≤ limit :=
            List.forall_mem_cons.mpr ⟨hd, hrest⟩
          rw [if_pos hrest, if_pos hall]
          cases readLines limit lines <;> rfl
        · have hnot : ¬ ∀ r ∈ record :: records, r.depth ≤ limit :=
            fun hall => hrest (List.forall_mem_cons.mp hall).2
          rw [if_neg hrest, if_neg hnot]
          rfl
      · have hnot : ¬ ∀ r ∈ record :: records, r.depth ≤ limit :=
          fun hall => hd (List.forall_mem_cons.mp hall).1
        rw [if_neg hd, if_neg hnot]

/-- **What reading a torn file gives**: an error when the bytes behind the records do not
decode, and otherwise the records, followed by what is JSON behind them. -/
theorem readTimeline_torn (writeLimit limit : Nat) (calls : List TimelineCall)
    (trailing : Bytes) :
    readTimeline limit
        (some ((Journal.appendAll writeLimit {} calls).1.file ++ trailing)) =
      (utf8Decode trailing).elim (.error .valueError) fun text =>
        if ∀ record ∈ (Journal.appendAll writeLimit {} calls).2, record.depth ≤ limit then
          (readLines limit (splitLines (universalNewlines text))).map
            ((Journal.appendAll writeLimit {} calls).2.map Json.reread ++ ·)
        else .error .recursionError := by
  obtain ⟨hfile, hrecords⟩ := Journal.appendAll_spec writeLimit {} calls
  rw [hfile]
  generalize (Journal.appendAll writeLimit {} calls).2 = records at hrecords ⊢
  have hdecode := utf8Decode_records records trailing
  rw [show ({} : Journal).file ++ records.flatMap recordBytes ++ trailing =
    records.flatMap recordBytes ++ trailing from rfl, readTimeline, hdecode]
  cases utf8Decode trailing with
  | none => rfl
  | some text =>
      rw [Option.map_some, Option.elim_some]
      dsimp only
      rw [splitLines_records, readLines_records limit fun record hr =>
        ⟨(hrecords record hr).wellFormed, (hrecords record hr).ints, (hrecords record hr).isObj⟩]

/-- A line that does not stop the reader: it is blank, or JSON, or raises a
{lit}`ValueError`. -/
def Harmless (limit : Nat) (line : PyStr) : Prop :=
  (strip line).isEmpty = true ∨ ∀ e, loadsText limit line = .error e → e = .valueError

/-- The reader gets through the lines that do not stop it. -/
theorem readLines_ok_iff (limit : Nat) (lines : List PyStr) :
    (∃ out, readLines limit lines = .ok out) ↔ ∀ line ∈ lines, Harmless limit line := by
  induction lines with
  | nil => exact ⟨fun _ _ h => absurd h List.not_mem_nil, fun _ => ⟨[], rfl⟩⟩
  | cons line lines ih =>
      rw [List.forall_mem_cons, ← ih, readLines, Harmless]
      by_cases hblank : (strip line).isEmpty = true
      · simp [hblank]
      · rw [if_neg hblank]
        cases hload : loadsText limit line with
        | ok j =>
            cases hrest : readLines limit lines <;> simp [Except.map]
        | error e =>
            cases e <;> simp [hblank]

/-- **The appended records come first** when the bytes behind them decode, no line there stops
the reader, and no record nests too deep or has a high surrogate directly followed by a low
one. -/
theorem readTimeline_prefix_iff (writeLimit limit : Nat) (calls : List TimelineCall)
    (trailing : Bytes) :
    (∃ out, readTimeline limit
        (some ((Journal.appendAll writeLimit {} calls).1.file ++ trailing)) = .ok out ∧
      (Journal.appendAll writeLimit {} calls).2.map Json.sorted <+: out) ↔
      (∃ text, utf8Decode trailing = some text ∧
        ∀ line ∈ splitLines (universalNewlines text), Harmless limit line) ∧
      ∀ record ∈ (Journal.appendAll writeLimit {} calls).2,
        record.depth ≤ limit ∧ ∀ s ∈ record.texts, Unpaired s := by
  rw [readTimeline_torn]
  obtain ⟨-, hrecords⟩ := Journal.appendAll_spec writeLimit {} calls
  generalize (Journal.appendAll writeLimit {} calls).2 = records at hrecords ⊢
  have hsame : records.map Json.reread = records.map Json.sorted ↔
      ∀ record ∈ records, ∀ s ∈ record.texts, Unpaired s := by
    rw [List.map_inj_left]
    exact forall₂_congr fun r hr => reread_eq_sorted_iff (hrecords r hr).wellFormed
  cases hdecode : utf8Decode trailing with
  | none => simp
  | some text =>
      simp only [Option.some.injEq, exists_eq_left', ← readLines_ok_iff, Option.elim_some]
      by_cases hdepth : ∀ record ∈ records, record.depth ≤ limit
      · rw [if_pos hdepth]
        cases hlines : readLines limit (splitLines (universalNewlines text)) with
        | error e => simp [Except.map]
        | ok rest =>
            have hprefix : records.map Json.sorted <+: records.map Json.reread ++ rest ↔
                records.map Json.reread = records.map Json.sorted := by
              constructor
              · intro h
                exact ((List.prefix_of_prefix_length_le h (List.prefix_append _ rest)
                  (by simp)).eq_of_length (by simp)).symm
              · intro h
                rw [h]
                exact List.prefix_append _ _
            simp only [Except.map, Except.ok.injEq, exists_eq_left', exists_eq', true_and,
              hprefix, hsame]
            exact ⟨fun h r hr => ⟨hdepth r hr, h r hr⟩, fun h r hr => (h r hr).2⟩
      · rw [if_neg hdepth]
        simp only [reduceCtorEq, false_and, exists_false, false_iff, not_and]
        exact fun _ h => hdepth fun r hr => (h r hr).1

end Observability
end FrigateXdna
