import Bir.Console
import Mathlib.Data.List.DropRight
import Mathlib.Data.List.Induction

/-!
# Console — the native block loses no byte and keeps their order

What a console holds is told by the requests that it was sent, whatever else was sent in between.
This file defines:

* `Console.Request` and `Console.after` — requests, and a console after them;
* `Console.pushed`, `Console.sinceLast` and `Console.taken` — what was pushed, the requests since the
  last one of its kind, and the line that was taken last;
* `Console.Does` — what one call does;
* `Console.Follows` — a console holds what its requests tell.

Each call keeps `Console.Follows`, so every run does: `Console.bytes_pass_in_order`.
-/

namespace Bir
namespace Console

/-! ## Requests -/

/-- What the native block is called with. -/
structure Request where
  verbs : List Int64
  arguments : List Int64
  deriving DecidableEq, Repr

/-- The first verb of a request is a certain code. -/
def Request.selects (request : Request) (code : Int64) : Bool := request.verbs.head? == some code

/-- The console after one call. -/
def next (console : Console) (request : Request) : Console :=
  (console.call request.verbs request.arguments).2

/-- The answer to one call. -/
def answer (console : Console) (request : Request) : Except Failure Int64 :=
  (console.call request.verbs request.arguments).1

/-- A console that reads prepared lines, after requests one by one. -/
def after (lines : List (List UInt8)) (requests : List Request) : Console :=
  requests.foldl next { channel := { source := .prepared lines } }

/-- The first arguments of the requests to push, as far as they have arguments. -/
def pushed (requests : List Request) : List Int64 :=
  (requests.filter (·.selects pushCode)).filterMap fun request => request.arguments.head?

/-- The requests since the last one with a certain code. -/
def sinceLast (code : Int64) (requests : List Request) : List Request :=
  requests.rtakeWhile fun request => !request.selects code

/-- How many requests have a certain code. -/
def count (code : Int64) (requests : List Request) : Nat := requests.countP (·.selects code)

/-- The line that was taken last, without line feeds and carriage returns at its end.  The lines are
taken in order, and there is nothing to be taken behind the last one. -/
def taken (lines : List (List UInt8)) (requests : List Request) : List UInt8 :=
  match count inputCode requests with
  | 0 => []
  | earlier + 1 => (lines.getD earlier []).rdropWhile fun byte => byte = 10 || byte = 13

/-- The numbers of the bytes that values are cut down to. -/
def residues (values : List Int64) : List Nat := values.map fun value => (value.toInt % 256).toNat

variable {console : Console} {request : Request} {code : Int64} {requests : List Request}
  {lines : List (List UInt8)}

theorem Request.verbs_of_selects (h : request.selects code = true) :
    ∃ verbs, request.verbs = code :: verbs := by
  have hcode : request.verbs.head? = some code := by simpa [selects] using h
  exact List.head?_eq_some_iff.1 hcode

/-- A request has one code. -/
theorem Request.selects_unique {other : Int64} (h : request.selects code = true)
    (also : request.selects other = true) : code = other := by
  obtain ⟨verbs, hcode⟩ := verbs_of_selects h
  obtain ⟨others, hother⟩ := verbs_of_selects also
  exact (List.cons.inj (hcode.symm.trans hother)).1

theorem Request.not_selects {other : Int64} (h : request.selects code = true) (ne : code ≠ other) :
    request.selects other = false :=
  Bool.eq_false_iff.2 fun also => ne (selects_unique h also)

theorem after_concat (lines : List (List UInt8)) (requests : List Request) (request : Request) :
    after lines (requests ++ [request]) = (after lines requests).next request :=
  List.foldl_concat _ _ _ _

/-! ### One more request -/

theorem pushed_append (requests others : List Request) :
    pushed (requests ++ others) = pushed requests ++ pushed others := by
  simp [pushed]

theorem residues_append (values others : List Int64) :
    residues (values ++ others) = residues values ++ residues others :=
  List.map_append

theorem sinceLast_concat_of_selects (h : request.selects code = true) :
    sinceLast code (requests ++ [request]) = [] :=
  List.rtakeWhile_concat_neg _ _ _ (by simp [h])

theorem sinceLast_concat_of_not_selects (h : request.selects code = false) :
    sinceLast code (requests ++ [request]) = sinceLast code requests ++ [request] :=
  List.rtakeWhile_concat_pos _ _ _ (by simp [h])

theorem count_concat (code : Int64) (requests : List Request) (request : Request) :
    count code (requests ++ [request]) =
      count code requests + if request.selects code then 1 else 0 := by
  simp [count, List.countP_append, List.countP_singleton]

/-! ## What one call does -/

/-- What a call comes to: an answer and the console after it. -/
inductive Does (console : Console) (request : Request) : Except Failure Int64 × Console → Prop
  | push (value : Int64) (code : request.selects pushCode = true)
      (argument : request.arguments.head? = some value) :
      Does console request (.ok value, console.push value)
  | refuse (code : request.selects pushCode = true) (argument : request.arguments = []) :
      Does console request
        (.error (.ofCause (.argumentCount blockName ["push expects 1 argument, found 0"])), console)
  | pull (code : request.selects pullCode = true) :
      Does console request (.ok console.pull.1, console.pull.2)
  | input (code : request.selects inputCode = true) : Does console request (.ok 0, console.input)
  | output (code : request.selects outputCode = true) :
      Does console request (.ok (request.arguments.headD 0), console.flush)
  | nothing (code : ∀ code ∈ [pushCode, pullCode, inputCode, outputCode],
      request.selects code = false) : Does console request (.ok 0, console)

theorem call_does (console : Console) (request : Request) :
    Does console request (console.call request.verbs request.arguments) := by
  obtain ⟨verbs, arguments⟩ := request
  cases verbs with
  | nil => exact .nothing (by simp [Request.selects])
  | cons code verbs =>
      unfold call
      simp only
      split
      · rename_i hcode
        have hpush : Request.selects ⟨code :: verbs, arguments⟩ pushCode = true := by
          simp [Request.selects, hcode]
        cases arguments with
        | nil => exact .refuse hpush rfl
        | cons value arguments => exact .push value hpush rfl
      · split
        · rename_i hcode
          exact .pull (by simp [Request.selects, hcode])
        · split
          · rename_i hcode
            exact .input (by simp [Request.selects, hcode])
          · split
            · rename_i hcode
              exact .output (by simp [Request.selects, hcode])
            · exact .nothing (by simp_all [Request.selects])

theorem does (console : Console) (request : Request) :
    Does console request (console.answer request, console.next request) :=
  call_does console request

/-! ### Single operations -/

theorem pull_channel (console : Console) : console.pull.2.channel = console.channel := by
  unfold pull
  split <;> rfl

theorem pull_pending (console : Console) : console.pull.2.pending = console.pending := by
  unfold pull
  split <;> rfl

theorem pull_line (console : Console) : console.pull.2.line = console.line.tail := by
  unfold pull
  split
  · rename_i hline
    rw [hline]
    rfl
  · rename_i hline
    rw [hline]
    rfl

/-- A pull yields the first byte of what is left of the line. -/
theorem pull_fst (console : Console) :
    console.pull.1 = (console.line.head?.map ofByte).getD done := by
  unfold pull
  split
  · rename_i hline
    rw [hline]
    rfl
  · rename_i hline
    rw [hline]
    rfl

/-- A value is cut down to its remainder by 256, be it negative or not. -/
theorem toNat_lowByte (value : Int64) : (lowByte value).toNat = (value.toInt % 256).toNat := by
  -- A negative value differs by 2 ^ 64 from its bits, which is a multiple of 256.
  have hunsigned : (lowByte value).toNat = value.toUInt64.toNat % 256 := by simp [lowByte]
  have hsigned := BitVec.toInt_eq_toNat_cond value.toBitVec
  have hbits : value.toBitVec.toNat = value.toUInt64.toNat := rfl
  have hvalue : value.toInt = value.toBitVec.toInt := rfl
  rw [hunsigned, hvalue, hsigned, hbits]
  split <;> omega

/-! ### Answers -/

theorem answer_of_pull (console : Console) (pull : request.selects pullCode = true) :
    console.answer request = .ok ((console.line.head?.map ofByte).getD done) := by
  obtain ⟨verbs, arguments⟩ := request
  obtain ⟨verbs, rfl⟩ := Request.verbs_of_selects pull
  exact congrArg Except.ok console.pull_fst

/-- Just a push without an argument fails. -/
theorem fails_iff (console : Console) (request : Request) :
    (∃ failure, console.answer request = .error failure) ↔
      request.selects pushCode = true ∧ request.arguments = [] := by
  have hdoes := does console request
  generalize console.answer request = value, console.next request = other at hdoes
  have hpushes : ∀ {code : Int64}, code ≠ pushCode → request.selects code = true →
      ¬ (request.selects pushCode = true ∧ request.arguments = []) := fun ne code hpush =>
    absurd (Request.selects_unique code hpush.1) ne
  cases hdoes with
  | push value code argument =>
      have harguments : request.arguments ≠ [] := by
        rintro hnil
        rw [hnil] at argument
        cases argument
      simp [harguments]
  | refuse code argument => simp [code, argument]
  | pull code => simpa using hpushes (by decide) code
  | input code => simpa using hpushes (by decide) code
  | output code => simpa using hpushes (by decide) code
  | nothing code => simp [code pushCode (by simp)]

theorem next_of_refused (console : Console) (push : request.selects pushCode = true)
    (argument : request.arguments = []) : console.next request = console := by
  obtain ⟨verbs, arguments⟩ := request
  obtain rfl : arguments = [] := argument
  obtain ⟨verbs, rfl⟩ := Request.verbs_of_selects push
  rfl

theorem next_of_unknown (console : Console)
    (unknown : ∀ code ∈ [pushCode, pullCode, inputCode, outputCode], request.selects code = false) :
    console.next request = console := by
  obtain ⟨verbs, arguments⟩ := request
  cases verbs with
  | nil => rfl
  | cons code verbs => simp_all [Request.selects, next, call]

/-! ## The bytes that were pushed -/

/-- Told by the requests to a console that held no bytes: what was written, and then what is kept
back, is all that was pushed, and what is kept back was pushed since the last output. -/
structure Writes (requests : List Request) (console : Console) : Prop where
  bytes : (console.channel.written ++ console.pending).toList.map UInt8.toNat =
    residues (pushed requests)
  pending : console.pending.toList.map UInt8.toNat =
    residues (pushed (sinceLast outputCode requests))

theorem pushed_singleton (code : request.selects pushCode = true) :
    pushed [request] = request.arguments.head?.toList := by
  cases h : request.arguments.head? <;> simp [pushed, code, h]

theorem pushed_singleton_of_not_selects (code : request.selects pushCode = false) :
    pushed [request] = [] := by
  simp [pushed, code]

namespace Writes

/-- A request that pushes nothing and writes nothing. -/
theorem concat (writes : Writes requests console) {other : Console} (pushes : pushed [request] = [])
    (code : request.selects outputCode = false)
    (written : other.channel.written = console.channel.written)
    (kept : other.pending = console.pending) : Writes (requests ++ [request]) other where
  bytes := by rw [written, kept, writes.bytes, pushed_append, pushes, List.append_nil]
  pending := by
    rw [kept, writes.pending, sinceLast_concat_of_not_selects code, pushed_append, pushes,
      List.append_nil]

theorem push (writes : Writes requests console) {value : Int64}
    (code : request.selects pushCode = true) (argument : request.arguments.head? = some value) :
    Writes (requests ++ [request]) (console.push value) := by
  have hpushed : pushed [request] = [value] := by rw [pushed_singleton code, argument]; rfl
  have hbyte : [(lowByte value).toNat] = residues [value] :=
    congrArg (fun number => [number]) (toNat_lowByte value)
  have hcode : request.selects outputCode = false := Request.not_selects code (by decide)
  refine ⟨?_, ?_⟩
  · calc
      ((console.push value).channel.written ++ (console.push value).pending).toList.map UInt8.toNat
          = (console.channel.written ++ console.pending).toList.map UInt8.toNat ++
              [(lowByte value).toNat] := by simp [Console.push]
      _ = residues (pushed requests) ++ residues [value] := by rw [writes.bytes, hbyte]
      _ = residues (pushed (requests ++ [request])) := by
        rw [pushed_append, hpushed, residues_append]
  · calc
      (console.push value).pending.toList.map UInt8.toNat
          = console.pending.toList.map UInt8.toNat ++ [(lowByte value).toNat] := by
        simp [Console.push]
      _ = residues (pushed (sinceLast outputCode requests)) ++ residues [value] := by
        rw [writes.pending, hbyte]
      _ = residues (pushed (sinceLast outputCode (requests ++ [request]))) := by
        rw [sinceLast_concat_of_not_selects hcode, pushed_append, hpushed, residues_append]

theorem flush (writes : Writes requests console) (code : request.selects outputCode = true) :
    Writes (requests ++ [request]) console.flush := by
  have hpushed : pushed [request] = [] :=
    pushed_singleton_of_not_selects (Request.not_selects code (by decide))
  refine ⟨?_, ?_⟩
  -- The bytes change places, and their order stays.
  · rw [pushed_append, hpushed, List.append_nil, ← writes.bytes]
    simp [Console.flush, Channel.write]
  · rw [sinceLast_concat_of_selects code]
    rfl

/-- What one call does to the bytes. -/
theorem next (writes : Writes requests console) (request : Request) :
    Writes (requests ++ [request]) (console.next request) := by
  have hdoes := does console request
  generalize console.answer request = value, console.next request = other at hdoes
  cases hdoes with
  | push value code argument => exact writes.push code argument
  | refuse code argument =>
      have hpushed : pushed [request] = [] := by rw [pushed_singleton code, argument]; rfl
      exact writes.concat hpushed (Request.not_selects code (by decide)) rfl rfl
  | pull code =>
      have hpushed : pushed [request] = [] :=
        pushed_singleton_of_not_selects (Request.not_selects code (by decide))
      exact writes.concat hpushed (Request.not_selects code (by decide))
        (congrArg Channel.written console.pull_channel) console.pull_pending
  | input code =>
      have hpushed : pushed [request] = [] :=
        pushed_singleton_of_not_selects (Request.not_selects code (by decide))
      exact writes.concat hpushed (Request.not_selects code (by decide)) rfl rfl
  | output code => exact writes.flush code
  | nothing code =>
      exact writes.concat (pushed_singleton_of_not_selects (code pushCode (by simp)))
        (code outputCode (by simp)) rfl rfl

end Writes

/-! ## The lines that were taken -/

/-- Told by the requests to a console that had taken no line: each input took the next line, and of
the line that was taken last each pull since then took the next byte. -/
structure Reads (lines : List (List UInt8)) (requests : List Request) (console : Console) : Prop where
  source : console.channel.source = .prepared (lines.drop (count inputCode requests))
  line : console.line =
    (taken lines requests).drop (count pullCode (sinceLast inputCode requests))

theorem readLine_prepared (lines : List (List UInt8)) (earlier : Nat) :
    (Source.prepared (lines.drop earlier)).readLine =
      (lines.getD earlier [], .prepared (lines.drop (earlier + 1))) := by
  cases h : lines.drop earlier with
  | nil =>
      have hshort : lines.length ≤ earlier := List.drop_eq_nil_iff.1 h
      simp [Source.readLine, hshort, Nat.le_succ_of_le hshort]
  | cons line later =>
      have hline : lines[earlier]? = some line := by
        rw [← List.head?_drop, h, List.head?_cons]
      have hlater : lines.drop (earlier + 1) = later := by
        rw [← List.tail_drop, h, List.tail_cons]
      simp [Source.readLine, hline, hlater]

theorem taken_concat_of_not_selects (lines : List (List UInt8))
    (h : request.selects inputCode = false) :
    taken lines (requests ++ [request]) = taken lines requests := by
  rw [taken, count_concat, h]
  rfl

namespace Reads

/-- A request that takes no line and hands out nothing. -/
theorem concat (reads : Reads lines requests console) {other : Console}
    (input : request.selects inputCode = false) (pull : request.selects pullCode = false)
    (source : other.channel.source = console.channel.source) (line : other.line = console.line) :
    Reads lines (requests ++ [request]) other where
  source := by simp [source, reads.source, count_concat, input]
  line := by
    rw [line, reads.line, taken_concat_of_not_selects lines input,
      sinceLast_concat_of_not_selects input, count_concat, pull]
    rfl

theorem pull (reads : Reads lines requests console) (code : request.selects pullCode = true) :
    Reads lines (requests ++ [request]) console.pull.2 := by
  have hinput : request.selects inputCode = false := Request.not_selects code (by decide)
  refine ⟨?_, ?_⟩
  · rw [pull_channel, reads.source, count_concat, hinput]
    rfl
  · rw [pull_line, reads.line, taken_concat_of_not_selects lines hinput,
      sinceLast_concat_of_not_selects hinput, count_concat, code, List.tail_drop]
    rfl

theorem input (reads : Reads lines requests console) (code : request.selects inputCode = true) :
    Reads lines (requests ++ [request]) console.input := by
  have hread := readLine_prepared lines (count inputCode requests)
  have hcount : count inputCode (requests ++ [request]) = count inputCode requests + 1 := by
    rw [count_concat, code]
    rfl
  rw [← reads.source] at hread
  refine ⟨?_, ?_⟩
  · simp [Console.input, Channel.readLine, hread, hcount]
  -- No pull has come since, whatever was left of the line before.
  · simp only [Console.input, Channel.readLine, hread, sinceLast_concat_of_selects code, taken, hcount]
    rfl

/-- What one call does to the lines. -/
theorem next (reads : Reads lines requests console) (request : Request) :
    Reads lines (requests ++ [request]) (console.next request) := by
  have hdoes := does console request
  generalize console.answer request = value, console.next request = other at hdoes
  cases hdoes with
  | push value code argument =>
      exact reads.concat (Request.not_selects code (by decide)) (Request.not_selects code (by decide))
        rfl rfl
  | refuse code argument =>
      exact reads.concat (Request.not_selects code (by decide)) (Request.not_selects code (by decide))
        rfl rfl
  | pull code => exact reads.pull code
  | input code => exact reads.input code
  | output code =>
      exact reads.concat (Request.not_selects code (by decide)) (Request.not_selects code (by decide))
        rfl rfl
  | nothing code =>
      exact reads.concat (code inputCode (by simp)) (code pullCode (by simp)) rfl rfl

end Reads

/-! ## Whole runs -/

theorem writes_after (lines : List (List UInt8)) (requests : List Request) :
    Writes requests (after lines requests) := by
  induction requests using List.reverseRecOn with
  | nil => exact ⟨rfl, rfl⟩
  | append_singleton requests request ih =>
      rw [after_concat]
      exact ih.next request

theorem reads_after (lines : List (List UInt8)) (requests : List Request) :
    Reads lines requests (after lines requests) := by
  induction requests using List.reverseRecOn with
  | nil => exact ⟨rfl, rfl⟩
  | append_singleton requests request ih =>
      rw [after_concat]
      exact ih.next request

/-- The native block neither loses nor reorders bytes, whatever it is called with: what was written and
then what is kept back are the bytes of all that was pushed, in order, and what is kept back was pushed
since the last output.  Each input takes the next line, and the pulls since then yield its bytes one by
one, and then always that it is used up.  Just a push without an argument fails; it changes nothing, and
no more does any code that names no operation. -/
theorem bytes_pass_in_order (lines : List (List UInt8)) (requests : List Request) :
    (((after lines requests).channel.written ++ (after lines requests).pending).toList.map
        UInt8.toNat = residues (pushed requests)) ∧
      (after lines requests).pending.toList.map UInt8.toNat =
        residues (pushed (sinceLast outputCode requests)) ∧
      (after lines requests).channel.source =
        .prepared (lines.drop (count inputCode requests)) ∧
      ∀ request : Request,
        (request.selects pullCode = true → (after lines requests).answer request =
          .ok (((taken lines requests)[count pullCode (sinceLast inputCode requests)]?.map
            fun byte => Int64.ofNat byte.toNat).getD done)) ∧
        ((∃ failure, (after lines requests).answer request = .error failure) ↔
          request.selects pushCode = true ∧ request.arguments = []) ∧
        (request.selects pushCode = true ∧ request.arguments = [] ∨
          (∀ code ∈ [pushCode, pullCode, inputCode, outputCode], request.selects code = false) →
            (after lines requests).next request = after lines requests) := by
  have hwrites := writes_after lines requests
  have hreads := reads_after lines requests
  refine ⟨hwrites.bytes, hwrites.pending, hreads.source, fun request => ⟨?_, ?_, ?_⟩⟩
  · intro hpull
    rw [answer_of_pull _ hpull, hreads.line, List.head?_drop]
    rfl
  · exact fails_iff _ request
  · rintro (⟨hpush, hargument⟩ | hunknown)
    · exact next_of_refused _ hpush hargument
    · exact next_of_unknown _ hunknown

/-- The line `ok`, with bytes pushed before and after it is taken and an output in between, as an
instance: `H` and the lowest byte of 321 are written, that of -1 is kept back, and the second pull
yields `k`. -/
theorem bytes_pass_in_order_of_line :
    let requests : List Request := [⟨[pushCode], [72]⟩, ⟨[inputCode], []⟩, ⟨[pushCode, 5], [321, 9]⟩,
      ⟨[outputCode], []⟩, ⟨[pushCode], []⟩, ⟨[pullCode], [3]⟩, ⟨[], [1]⟩, ⟨[pushCode], [-1]⟩]
    let console := after [[111, 107, 13, 10], [10]] requests
    (console.channel.written ++ console.pending).toList.map UInt8.toNat = [72, 65, 255] ∧
      console.pending.toList.map UInt8.toNat = [255] ∧
      console.channel.source = .prepared [[10]] ∧
      (console.answer ⟨[pullCode], []⟩).toOption = some 107 := by
  intro requests console
  obtain ⟨hbytes, hpending, hsource, hanswer⟩ :=
    bytes_pass_in_order [[111, 107, 13, 10], [10]] requests
  refine ⟨hbytes, hpending, hsource, ?_⟩
  rw [(hanswer ⟨[pullCode], []⟩).1 rfl]
  decide

end Console
end Bir
