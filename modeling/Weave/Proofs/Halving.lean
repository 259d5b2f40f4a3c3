import Mathlib.Algebra.Group.Nat.Defs
import Mathlib.Data.List.Infix
import Mathlib.Logic.Function.Iterate
import Weave.Document.BlankLine
import Weave.Text.Line

/-!
# Runs of line feeds

A document is made of characters other than line feeds, in one way only, with a number of line feeds
behind each of them and in front of the first one. Collapsing halves these numbers, rounded up, and
leaves all else alone: a single line feed stays, and so lines that were apart stay apart. It has to
be done as often as the longest run can be halved before no two line feeds are adjacent.

## Main definitions

* `Weave.BlankLine.half`: half of a number, rounded up.
* `Weave.BlankLine.Runs`: the runs of line feeds of a document and what stands between them.

## Main results

* `Weave.BlankLine.collapse_append`: texts between which no run of line feeds is cut.
* `Weave.BlankLine.collapse_eq_self_iff`: a document stays as it is if no line feeds are adjacent.
* `Weave.BlankLine.collapse_halves`: what becomes of the runs, at once and in the end.
-/

namespace Weave.BlankLine

/-! ### One run -/

/-- Half of a number, rounded up. -/
def half (n : Nat) : Nat := (n + 1) / 2

theorem collapse_pair (cs : Text) : collapse ('\n' :: '\n' :: cs) = '\n' :: collapse cs := rfl

theorem collapse_cons {c : Char} {cs : Text} (h : c ≠ '\n' ∨ cs.head? ≠ some '\n') :
    collapse (c :: cs) = c :: collapse cs := by
  rw [collapse.eq_def]
  split
  · cases ‹c :: cs = []›
  · rename_i heq
    obtain ⟨rfl, rfl⟩ := List.cons.inj heq
    simp at h
  · rename_i heq
    obtain ⟨rfl, rfl⟩ := List.cons.inj heq
    rfl

/-- Texts between which no run of line feeds is cut collapse apart from each other. -/
theorem collapse_append {front back : Text}
    (h : front.getLast? ≠ some '\n' ∨ back.head? ≠ some '\n') :
    collapse (front ++ back) = collapse front ++ collapse back := by
  fun_induction collapse front with
  | case1 => rfl
  | case2 cs ih =>
    rw [List.cons_append, List.cons_append, collapse_pair, List.cons_append, ih]
    cases cs with
    | nil => exact .inr (h.resolve_left (by simp))
    | cons d ds => simpa using h
  | case3 c cs hpair ih =>
    cases cs with
    | nil =>
      rw [List.singleton_append, collapse_cons (by simpa using h)]
      rfl
    | cons d ds =>
      rw [List.cons_append, collapse_cons, ih (by simpa using h), List.cons_append]
      by_cases hc : c = '\n'
      · exact .inr (by simpa using hpair ds hc)
      · exact .inl hc

theorem collapse_replicate (n : Nat) :
    collapse (List.replicate n '\n') = List.replicate (half n) '\n' := by
  induction n using Nat.twoStepInduction with
  | zero => rfl
  | one => rfl
  | more n ih _ =>
    have hhalf : half (n + 2) = half n + 1 := by
      simp only [half]
      omega
    rw [List.replicate_succ, List.replicate_succ, collapse_pair, ih, hhalf, List.replicate_succ]

/-- A run of line feeds between two texts that do not reach into it is halved. -/
theorem collapse_run {front back : Text} (n : Nat) (hfront : front.getLast? ≠ some '\n')
    (hback : back.head? ≠ some '\n') :
    collapse (front ++ List.replicate n '\n' ++ back) =
      collapse front ++ List.replicate (half n) '\n' ++ collapse back := by
  rw [collapse_append (.inr hback), collapse_append (.inl hfront), collapse_replicate]

/-! ### All runs -/

/-- The characters of a document other than line feeds, with the number of line feeds behind each of
them and in front of the first one. -/
structure Runs where
  first : Nat
  rest : List ({c : Char // c ≠ '\n'} × Nat)

namespace Runs

/-- The document with some runs of line feeds. -/
def text (runs : Runs) : Text :=
  List.replicate runs.first '\n' ++
    runs.rest.flatMap fun (c, n) ↦ c.val :: List.replicate n '\n'

/-- How long the runs are. -/
def lengths (runs : Runs) : List Nat := runs.first :: runs.rest.map Prod.snd

/-- The runs with other lengths. -/
def map (f : Nat → Nat) (runs : Runs) : Runs :=
  ⟨f runs.first, runs.rest.map fun (c, n) ↦ (c, f n)⟩

/-- The runs of a document. -/
def ofText : Text → Runs
  | [] => ⟨0, []⟩
  | c :: cs =>
    if h : c = '\n' then ⟨(ofText cs).first + 1, (ofText cs).rest⟩
    else ⟨0, (⟨c, h⟩, (ofText cs).first) :: (ofText cs).rest⟩

theorem text_cons (n : Nat) (c : {c : Char // c ≠ '\n'}) (m : Nat)
    (rest : List ({c : Char // c ≠ '\n'} × Nat)) :
    text ⟨n, (c, m) :: rest⟩ = List.replicate n '\n' ++ c.val :: text ⟨m, rest⟩ := by
  simp [text]

theorem text_ofText (document : Text) : (ofText document).text = document := by
  induction document with
  | nil => rfl
  | cons c cs ih =>
    rw [ofText]
    split
    · rw [text, List.replicate_succ, List.cons_append, ← text, ih, ‹c = '\n'›]
    · rw [text_cons, ih]
      rfl

theorem ofText_replicate_append (n : Nat) (t : Text) :
    ofText (List.replicate n '\n' ++ t) = ⟨(ofText t).first + n, (ofText t).rest⟩ := by
  induction n with
  | zero => rfl
  | succ n ih => rw [List.replicate_succ, List.cons_append, ofText, dif_pos rfl, ih]; rfl

theorem ofText_text (runs : Runs) : ofText runs.text = runs := by
  obtain ⟨first, rest⟩ := runs
  induction rest generalizing first with
  | nil => simpa [text, ofText] using ofText_replicate_append first []
  | cons entry rest ih =>
    obtain ⟨c, m⟩ := entry
    rw [text_cons, ofText_replicate_append, ofText, dif_neg c.property, ih]
    simp

theorem map_comp (f g : Nat → Nat) (runs : Runs) : (runs.map f).map g = runs.map (g ∘ f) := by
  simp [map]

theorem lengths_map (f : Nat → Nat) (runs : Runs) : (runs.map f).lengths = runs.lengths.map f := by
  simp [lengths, map]

theorem map_eq_self_iff {f : Nat → Nat} {runs : Runs} :
    runs.map f = runs ↔ ∀ n ∈ runs.lengths, f n = n := by
  constructor
  · intro h n hn
    have hlengths := lengths_map f runs
    rw [h, ← List.map_id runs.lengths, List.map_map] at hlengths
    exact (List.map_inj_left.mp hlengths n hn).symm
  · intro h
    obtain ⟨first, rest⟩ := runs
    obtain ⟨hfirst, hrest⟩ := List.forall_mem_cons.mp h
    have hsame : (rest.map fun (c, n) ↦ (c, f n)) = rest.map id :=
      List.map_congr_left fun _ hentry ↦ Prod.ext rfl (hrest _ (List.mem_map_of_mem hentry))
    rw [map, hfirst, hsame, List.map_id]

theorem le_length_of_mem_lengths {n : Nat} {runs : Runs} (h : n ∈ runs.lengths) :
    n ≤ runs.text.length := by
  obtain ⟨first, rest⟩ := runs
  induction rest generalizing first with
  | nil =>
    obtain rfl : n = first := List.mem_singleton.mp h
    simp [text]
  | cons entry rest ih =>
    obtain ⟨c, m⟩ := entry
    rw [text_cons, List.length_append, List.length_replicate, List.length_cons]
    rcases List.mem_cons.mp h with rfl | h
    · omega
    · have := ih m h
      omega

end Runs

/-- All runs are halved. -/
theorem collapse_text (runs : Runs) : collapse runs.text = (runs.map half).text := by
  obtain ⟨first, rest⟩ := runs
  induction rest generalizing first with
  | nil => simpa [Runs.text, Runs.map] using collapse_replicate first
  | cons entry rest ih =>
    obtain ⟨c, m⟩ := entry
    have hc : (c.val :: Runs.text ⟨m, rest⟩).head? ≠ some '\n' := by simpa using c.property
    rw [Runs.text_cons, collapse_append (.inr hc), collapse_replicate,
      collapse_cons (.inl c.property), ih, Runs.map, Runs.map, List.map_cons, Runs.text_cons]

theorem iterate_collapse_text (k : Nat) (runs : Runs) :
    collapse^[k] runs.text = (runs.map half^[k]).text := by
  induction k with
  | zero => simp [Runs.map]
  | succ k ih =>
    rw [Function.iterate_succ_apply', ih, collapse_text, Runs.map_comp, ← Function.iterate_succ']

/-! ### Nothing more to collapse -/

theorem length_collapse_le (t : Text) : (collapse t).length ≤ t.length := by
  fun_induction collapse t with
  | case1 => exact le_rfl
  | case2 cs ih =>
    simp only [List.length_cons]
    omega
  | case3 c cs _ ih => exact Nat.succ_le_succ ih

/-- A text stays as it is exactly if no two line feeds are adjacent in it. -/
theorem collapse_eq_self_iff {t : Text} : collapse t = t ↔ ¬['\n', '\n'] <:+: t := by
  fun_induction collapse t with
  | case1 => simp
  | case2 cs =>
    refine iff_of_false (fun h ↦ ?_) (not_not_intro (List.prefix_append _ cs).isInfix)
    have hlength := congrArg List.length (List.cons.inj h).2
    have hle := length_collapse_le cs
    rw [List.length_cons] at hlength
    omega
  | case3 c cs hpair ih =>
    have hprefix : ¬['\n', '\n'] <+: c :: cs := by
      rintro ⟨rest, h⟩
      obtain ⟨rfl, rfl⟩ := List.cons.inj h
      exact hpair rest rfl rfl
    rw [List.cons_inj_right, ih, List.infix_cons_iff, or_iff_right hprefix]

theorem half_le_iff {n m : Nat} : half n ≤ m ↔ n ≤ 2 * m := by
  rw [half]
  omega

theorem iterate_half_le_iff {k n m : Nat} : half^[k] n ≤ m ↔ n ≤ 2 ^ k * m := by
  induction k generalizing n with
  | zero => simp
  | succ k ih => rw [Function.iterate_succ_apply, ih, half_le_iff, Nat.pow_succ', Nat.mul_assoc]

theorem half_eq_self_iff {n : Nat} : half n = n ↔ n ≤ 1 := by
  rw [half]
  omega

/-- No two line feeds are adjacent exactly if each run is one line feed at most. -/
theorem not_isInfix_text_iff {runs : Runs} :
    ¬['\n', '\n'] <:+: runs.text ↔ ∀ n ∈ runs.lengths, n ≤ 1 := by
  have hinjective : Function.Injective Runs.text := Function.LeftInverse.injective Runs.ofText_text
  rw [← collapse_eq_self_iff, collapse_text, hinjective.eq_iff, Runs.map_eq_self_iff]
  simp only [half_eq_self_iff]

/-- How often a document has to be collapsed is a matter of its longest run. -/
theorem not_isInfix_iterate_iff {k : Nat} {runs : Runs} :
    ¬['\n', '\n'] <:+: collapse^[k] runs.text ↔ ∀ n ∈ runs.lengths, n ≤ 2 ^ k := by
  rw [iterate_collapse_text, not_isInfix_text_iff, Runs.lengths_map, List.forall_mem_map]
  simp only [iterate_half_le_iff, Nat.mul_one]

/-! ### Lines -/

theorem filter_eq_of_head?_eq {p : Text → Bool} {ls ls' : List Text} (hhead : ls.head? = ls'.head?)
    (htail : ls.tail.filter p = ls'.tail.filter p) : ls.filter p = ls'.filter p := by
  cases ls with
  | nil => rw [List.head?_eq_none_iff.mp hhead.symm]
  | cons line rest =>
    obtain ⟨rest', rfl⟩ := List.head?_eq_some_iff.mp hhead.symm
    rw [List.filter_cons, List.filter_cons]
    exact congrArg (fun kept ↦ if p line then line :: kept else kept) htail

/-- The first line stays, and of the others all that hold more than a line feed. -/
theorem brokenLines_collapse (t : Text) :
    (Text.brokenLines (collapse t)).head? = (Text.brokenLines t).head? ∧
      (Text.brokenLines (collapse t)).tail.filter (· ≠ ['\n']) =
        (Text.brokenLines t).tail.filter (· ≠ ['\n']) := by
  fun_induction collapse t with
  | case1 => exact ⟨rfl, rfl⟩
  | case2 cs ih =>
    -- The line feed that goes is a line of its own behind the one that stays.
    refine ⟨rfl, ?_⟩
    simpa [Text.brokenLines] using filter_eq_of_head?_eq ih.1 ih.2
  | case3 c cs _ ih =>
    obtain ⟨hhead, htail⟩ := ih
    by_cases hc : c = '\n'
    · simpa [Text.brokenLines, hc] using filter_eq_of_head?_eq hhead htail
    · rw [Text.brokenLines, Text.brokenLines, if_neg hc, if_neg hc]
      cases hls : Text.brokenLines (collapse cs) <;> cases hls' : Text.brokenLines cs <;> simp_all

/-- **Runs of line feeds.** A document has its runs of line feeds, and other characters between
them, in exactly one way. Each run is halved, rounded up, and the other characters stay as they are;
what stands on the two sides of a run does not matter. So no two lines are joined: all lines that
hold more than a line feed stay, each with its line feed. No two line feeds are adjacent in the end,
namely as soon as the document has been collapsed as often as the longest run can be halved. -/
theorem collapse_halves :
    (∀ document, ∃! runs : Runs, runs.text = document) ∧
    (∀ runs : Runs, collapse runs.text = (runs.map half).text) ∧
    (∀ (front back : Text) (n : Nat), front.getLast? ≠ some '\n' → back.head? ≠ some '\n' →
      collapse (front ++ List.replicate n '\n' ++ back) =
        collapse front ++ List.replicate (half n) '\n' ++ collapse back) ∧
    (∀ document, (Text.brokenLines (collapse document)).filter (· ≠ ['\n']) =
      (Text.brokenLines document).filter (· ≠ ['\n'])) ∧
    (∀ (runs : Runs) (k : Nat), ¬['\n', '\n'] <:+: collapse^[k] runs.text ↔
      ∀ n ∈ runs.lengths, n ≤ 2 ^ k) ∧
    ∀ document, ∃ k, ¬['\n', '\n'] <:+: collapse^[k] document := by
  refine ⟨fun document ↦ ?_, collapse_text, fun front back n ↦ collapse_run n, fun document ↦ ?_,
    fun runs k ↦ not_isInfix_iterate_iff, fun document ↦ ⟨document.length, ?_⟩⟩
  · exact ⟨.ofText document, Runs.text_ofText document, fun runs h ↦ h ▸ runs.ofText_text.symm⟩
  · exact filter_eq_of_head?_eq (brokenLines_collapse document).1 (brokenLines_collapse document).2
  · obtain ⟨runs, rfl⟩ : ∃ runs : Runs, runs.text = document := ⟨_, Runs.text_ofText document⟩
    refine not_isInfix_iterate_iff.mpr fun n hn ↦ ?_
    exact (Runs.le_length_of_mem_lengths hn).trans Nat.lt_two_pow_self.le

/-- Runs of two, three and five line feeds, at the start, in the middle and at the end. -/
example : collapse "\n\na\n\n\nb\r\n\n\n\n\n".toList = "\na\n\nb\r\n\n\n".toList := by decide

end Weave.BlankLine
