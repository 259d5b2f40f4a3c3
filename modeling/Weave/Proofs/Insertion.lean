import Weave.Document.Contents
import Weave.Proofs.Headings
import Weave.Proofs.Listing

/-!
# The table of contents in its document

The table of contents takes the place of a marker. Its lines carry the titles of the document, which
may hold any text, but each of them starts with tabs and an asterisk. So none of them is a heading,
and none is a fence of either kind: the headings of the document are found as before, and so are its
blocks, unless the marker stands in the body of one, which then has another body.

## Main definitions

* `Weave.Heading.IsProse`: a line that is no heading and no fence.
* `Weave.Segment.height`, `Weave.Segment.inBlock`: the lines of blocks.

## Main results

* `Weave.Heading.notMem_slug`, `Weave.Heading.slug_of_ascii`: the anchor of a title.
* `Weave.Segment.Divides.blocks_replace_iff`: a line that is replaced by others leaves the blocks as
  they are exactly if it stands outside them.
* `Weave.Contents.insert_frame`: what a marker that stands alone on its line leaves as it is.
-/

namespace Weave

/-! ### Lines that are no headings and no fences -/

namespace Heading

/-- What a heading or a fence starts with. -/
def signs : List Char := ['\x60', '~', '#']

/-- A line that is no heading and no fence. -/
structure IsProse (line : Text) : Prop where
  fence : isFenceLine line = false
  heading : ofLine? line = none

/-- A line whose first character that is not blank starts no heading and no fence is neither. -/
theorem isProse_of_trimStart {line : Text}
    (h : ∀ c, (Text.trimStart line).head? = some c → c ∉ signs) : IsProse line := by
  constructor
  · unfold isFenceLine
    split
    · exact absurd (by decide) (h '\x60' (by rw [‹Text.trimStart line = _›]; rfl))
    · exact absurd (by decide) (h '~' (by rw [‹Text.trimStart line = _›]; rfl))
    · rfl
  · cases line with
    | nil => rfl
    | cons c cs =>
      have hc : ¬c = '#' := by
        rintro rfl
        exact h '#' rfl (by decide)
      unfold ofLine?
      split <;> simp [hc]

/-- What is said of the start of a line holds without its line end. -/
theorem isProse_withoutLineEnd {line : Text}
    (h : ∀ c, (Text.trimStart line).head? = some c → c ∉ signs) :
    IsProse (Text.withoutLineEnd line) := by
  obtain ⟨tail, hline, -⟩ := Text.exists_withoutLineEnd_append line
  refine isProse_of_trimStart fun c hc ↦ h c ?_
  have hne : (Text.trimStart (Text.withoutLineEnd line)).isEmpty = false := by
    cases htrim : Text.trimStart (Text.withoutLineEnd line) with
    | nil => simp [htrim] at hc
    | cons => rfl
  rw [Text.trimStart, Text.trimStartWhere] at hc hne ⊢
  rw [hline, List.dropWhile_append, hne, if_neg (by simp), List.head?_append, hc, Option.some_or]

/-- The title of a heading holds no line feed. -/
theorem lineFeed_notMem_of_ofLine? {line : Text} {heading : Heading}
    (h : ofLine? line = some heading) : '\n' ∉ heading.title := by
  simp only [ofLine?] at h
  split at h
  · simp only [Option.ite_none_right_eq_some, Option.some.injEq] at h
    obtain ⟨⟨-, -, htitle⟩, rfl⟩ := h
    exact fun hmem ↦ htitle (Text.mem_of_mem_trimEndWhere hmem)
  · cases h

/-- Lines that are no headings and no fences change nothing. -/
theorem collect_prose {ls : List Text} (h : ∀ line ∈ ls, IsProse line) (inFence : Bool) :
    collect inFence ls = [] ∧ after inFence ls = inFence := by
  induction ls with
  | nil => exact ⟨rfl, rfl⟩
  | cons line rest ih =>
    obtain ⟨hline, hrest⟩ := List.forall_mem_cons.mp h
    obtain ⟨hnone, hafter⟩ := ih hrest
    rw [collect, after, List.foldl_cons, ← after, hline.fence, hline.heading, Bool.xor_false]
    cases inFence <;> exact ⟨hnone, hafter⟩

/-- Documents that differ in lines that are no headings and no fences have the same headings. -/
theorem find_replace {document changed : Text} {ls old new rest : List Text}
    (hdocument : Text.brokenLines document = ls ++ (old ++ rest))
    (hchanged : Text.brokenLines changed = ls ++ (new ++ rest))
    (hold : ∀ line ∈ old, IsProse (Text.withoutLineEnd line))
    (hnew : ∀ line ∈ new, IsProse (Text.withoutLineEnd line)) : find changed = find document := by
  have hfind {text : Text} {mid : List Text} (htext : Text.brokenLines text = ls ++ (mid ++ rest))
      (hmid : ∀ line ∈ mid, IsProse (Text.withoutLineEnd line)) :
      find text = collect false (ls.map Text.withoutLineEnd) ++
        collect (after false (ls.map Text.withoutLineEnd)) (rest.map Text.withoutLineEnd) := by
    obtain ⟨hnone, hafter⟩ := collect_prose (List.forall_mem_map.mpr hmid)
      (after false (ls.map Text.withoutLineEnd))
    rw [find, Text.lines, htext, List.map_append, List.map_append, collect_append, collect_append,
      hnone, hafter, List.nil_append]
  rw [hfind hdocument hold, hfind hchanged hnew]

variable {line : Text}

theorem IsProse.opening?_eq_none (h : IsProse (Text.withoutLineEnd line)) :
    Fence.opening? line = none := by
  refine Option.not_isSome_iff_eq_none.mp fun hopens ↦ ?_
  have := isFenceLine_of_opening? hopens
  rw [h.fence] at this
  cases this

theorem IsProse.isClosing_eq_false (h : IsProse (Text.withoutLineEnd line)) :
    Fence.isClosing line = false := by
  refine Bool.eq_false_iff.mpr fun hcloses ↦ ?_
  have := isFenceLine_of_isClosing hcloses
  rw [h.fence] at this
  cases this

end Heading

/-! ### Lines of a table of contents -/

namespace Text

/-- Blanks at the start of a text do not change what follows the blanks at its start. -/
theorem trimStart_append {s : Text} (h : ∀ c ∈ s, isBlank c = true) (t : Text) :
    trimStart (s ++ t) = trimStart t :=
  List.dropWhile_append_of_pos h

theorem trimStart_eq_nil {t : Text} (h : ∀ c ∈ t, isBlank c = true) : trimStart t = [] := by
  rw [← List.append_nil t, trimStart_append h]
  rfl

/-- Below the capital letters, no other character has a character as its lower case. -/
theorem notMem_lowerChar {c d : Char} (hlow : 0 < d.toNat) (hhigh : d.toNat < 65) (h : c ≠ d) :
    d ∉ lowerChar c := by
  have himages : ∀ run ∈ caseRuns, 65 ≤ run.image := by decide +kernel
  unfold lowerChar
  split
  · rw [List.mem_singleton]
    unfold Char.toLower
    split
    · rename_i hupper
      intro heq
      have hval : d.toNat = (c.val + 32).toNat := congrArg (fun d ↦ d.val.toNat) heq
      have hfirst : 65 ≤ c.val.toNat := hupper.1
      have hlast : c.val.toNat ≤ 90 := hupper.2
      simp only [UInt32.toNat_add, UInt32.reduceToNat] at hval
      omega
    · exact Ne.symm h
  split
  · intro hmem
    simp only [List.mem_cons, List.not_mem_nil, or_false] at hmem
    rcases hmem with rfl | rfl <;> exact absurd hhigh (by decide)
  · rw [List.mem_singleton]
    cases hfound : caseRuns.findSome? (·.image? c.toNat) with
    | none => exact Ne.symm h
    | some n =>
      obtain ⟨run, hrun, himage⟩ := List.exists_of_findSome?_eq_some hfound
      have hlt := himages run hrun
      simp only [CaseRun.image?, Option.ite_none_right_eq_some, Option.some.injEq] at himage
      intro heq
      have hvalue : d.toNat = (Char.ofNat n).toNat := congrArg Char.toNat heq
      have := Utf8.toNat_charOfNat n
      omega

/-- Below the capital letters, the lower case of a text holds no character that the text does not
hold. -/
theorem notMem_lowerCase {d : Char} (hlow : 0 < d.toNat) (hhigh : d.toNat < 65) {t : Text}
    (h : d ∉ t) : d ∉ lowerCase t := by
  suffices hafter : ∀ before, d ∉ lowerCaseAfter before t from hafter []
  induction t with
  | nil => exact fun _ ↦ List.not_mem_nil
  | cons c cs ih =>
    obtain ⟨hc, hcs⟩ := not_or.mp (mt List.mem_cons.mpr h)
    intro before
    rw [lowerCaseAfter, List.mem_append]
    refine not_or.mpr ⟨?_, ih hcs _⟩
    split
    · split <;> exact fun hmem ↦ absurd hhigh (List.mem_singleton.mp hmem ▸ by decide)
    · exact notMem_lowerChar hlow hhigh (Ne.symm hc)

/-- The characters of an ASCII text are put into lower case one by one. -/
theorem lowerCase_of_ascii {t : Text} (h : ∀ c ∈ t, c.toNat < 128) :
    lowerCase t = t.map Char.toLower := by
  suffices hafter : ∀ before, lowerCaseAfter before t = t.map Char.toLower from hafter []
  induction t with
  | nil => exact fun _ ↦ rfl
  | cons c cs ih =>
    obtain ⟨hc, hcs⟩ := List.forall_mem_cons.mp h
    have hsigma : c ≠ 'Σ' := fun heq ↦ absurd (heq ▸ hc) (by decide)
    intro before
    rw [lowerCaseAfter, if_neg hsigma, lowerChar, if_pos hc, ih hcs]
    rfl

end Text

namespace Heading

/-- The anchor of a title holds no space and no full stop, and no line feed that the title does not
hold. -/
theorem notMem_slug (title : Text) :
    ' ' ∉ slug title ∧ '.' ∉ slug title ∧ ('\n' ∉ title → '\n' ∉ slug title) := by
  refine ⟨Text.notMem_lowerCase (by decide) (by decide) fun hmem ↦ ?_,
    Text.notMem_lowerCase (by decide) (by decide) fun hmem ↦ ?_,
    fun h ↦ Text.notMem_lowerCase (by decide) (by decide) fun hmem ↦ ?_⟩
  · obtain ⟨c, -, hc⟩ := List.mem_map.mp (List.mem_of_mem_filter hmem)
    split at hc
    · cases hc
    · exact absurd hc ‹_›
  · exact absurd rfl (of_decide_eq_true (List.mem_filter.mp hmem).2)
  · obtain ⟨c, hmem, hc⟩ := List.mem_map.mp (List.mem_of_mem_filter hmem)
    split at hc
    · cases hc
    · exact h (hc ▸ hmem)

/-- In the anchor of an ASCII title the full stops are left out, a hyphen stands for each space, and
each other character is in lower case. -/
theorem slug_of_ascii {title : Text} (h : ∀ c ∈ title, c.toNat < 128) :
    slug title = (title.filter (· ≠ '.')).map fun c ↦ if c = ' ' then '-' else c.toLower := by
  have hmap : (title.map fun c ↦ if c = ' ' then '-' else c).filter (· ≠ '.') =
      (title.filter (· ≠ '.')).map fun c ↦ if c = ' ' then '-' else c := by
    rw [List.filter_map]
    refine congrArg (List.map _) (List.filter_congr fun c _ ↦ ?_)
    by_cases hc : c = ' ' <;> simp [hc]
  rw [slug, hmap, Text.lowerCase_of_ascii fun c hc ↦ ?_, List.map_map]
  · refine List.map_congr_left fun c _ ↦ ?_
    by_cases hc : c = ' ' <;> simp [hc]
  · obtain ⟨d, hd, rfl⟩ := List.mem_map.mp hc
    split
    · decide
    · exact h d (List.mem_of_mem_filter hd)

end Heading

namespace Contents

/-- A title holds no line feed. -/
theorem lineFeed_notMem_title {document : Text} {heading : Heading}
    (h : heading ∈ Heading.find document) : '\n' ∉ heading.title := by
  rw [Heading.find] at h
  generalize false = inFence, Text.lines document = ls at h
  induction ls generalizing inFence with
  | nil => cases h
  | cons line rest ih =>
    rw [Heading.collect] at h
    split at h
    · exact ih _ h
    split at h
    · exact ih _ h
    rcases List.mem_append.mp h with h | h
    · exact Heading.lineFeed_notMem_of_ofLine? (Option.mem_toList.mp h)
    · exact ih _ h

/-- An item is one line. -/
theorem item_eq {heading : Heading} (h : '\n' ∉ heading.title) :
    ∃ t, item heading = t ++ ['\n'] ∧ '\n' ∉ t := by
  refine ⟨List.replicate (heading.level - 1) '\t' ++ ['*', ' ', '['] ++ heading.title ++
    [']', '(', '#'] ++ Heading.slug heading.title ++ [')'], by simp [item], ?_⟩
  have hslug : '\n' ∉ Heading.slug heading.title := (Heading.notMem_slug heading.title).2.2 h
  simp [h, hslug]

/-- An item starts with blanks and an asterisk. -/
theorem head?_trimStart_item (heading : Heading) :
    (Text.trimStart (item heading)).head? = some '*' := by
  have htabs : ∀ c ∈ List.replicate (heading.level - 1) '\t', Text.isBlank c = true := fun c hc ↦ by
    rw [List.eq_of_mem_replicate hc]
    decide
  rw [item, List.append_assoc, List.append_assoc, List.append_assoc, List.append_assoc,
    Text.trimStart_append htabs]
  rfl

theorem length_item (heading : Heading) : 5 < (item heading).length := by
  simp [item]
  omega

/-- Between blanks, the lines of a table of contents are no headings and no fences. -/
theorem isProse_render {headings : List Heading} (h : ∀ heading ∈ headings, '\n' ∉ heading.title)
    {s t : Text} (hs : ∀ c ∈ s, Text.isBlank c = true) (hfeed : '\n' ∉ s)
    (ht : ∀ c ∈ t, Text.isBlank c = true) :
    ∀ line ∈ Text.brokenLines (s ++ render headings ++ t),
      Heading.IsProse (Text.withoutLineEnd line) := by
  induction headings generalizing s with
  | nil =>
    intro line hline
    have hblank : ∀ c ∈ line, Text.isBlank c = true := fun c hc ↦ by
      have hmem := Text.mem_of_mem_brokenLines hline hc
      rw [render, List.flatMap_nil, List.append_nil] at hmem
      exact (List.mem_append.mp hmem).elim (hs c) (ht c)
    exact Heading.isProse_withoutLineEnd (by simp [Text.trimStart_eq_nil hblank])
  | cons heading headings ih =>
    obtain ⟨hheading, hheadings⟩ := List.forall_mem_cons.mp h
    obtain ⟨u, hitem, hu⟩ := item_eq hheading
    have hrest := ih hheadings (List.forall_mem_nil _) List.not_mem_nil
    have htext : s ++ render (heading :: headings) ++ t =
        (s ++ u ++ ['\n']) ++ ([] ++ render headings ++ t) := by
      simp [render, hitem]
    rw [htext, Text.brokenLines_append (Text.endsLine_append_lineFeed _),
      Text.brokenLines_append_lineFeed (by simp [hfeed, hu])]
    refine List.forall_mem_cons.mpr ⟨Heading.isProse_withoutLineEnd fun c hc ↦ ?_, hrest⟩
    rw [List.append_assoc, ← hitem, Text.trimStart_append hs, head?_trimStart_item] at hc
    rw [← Option.some.inj hc]
    decide

end Contents

/-! ### Lines in and outside blocks -/

namespace Segment

/-- Whether a segment is a block. -/
def isCode : Segment → Bool
  | .literal _ => false
  | .code _ => true

/-- The number of lines in the region of a segment. -/
def height : Segment → Nat
  | .literal text => (Text.brokenLines text).length
  | .code block => (Text.brokenLines block.body).length + 2

/-- Whether the line with a number, counted from nought, lies in the region of a block. -/
def inBlock : List Segment → Nat → Bool
  | [], _ => false
  | segment :: rest, n =>
    if n < segment.height then segment.isCode else inBlock rest (n - segment.height)

theorem inBlock_cons_add (segment : Segment) (rest : List Segment) (n : Nat) :
    inBlock (segment :: rest) (segment.height + n) = inBlock rest n := by
  rw [inBlock, if_neg (by omega), Nat.add_sub_cancel_left]

theorem inBlock_cons_of_lt {segment : Segment} {n : Nat} (h : n < segment.height)
    (rest : List Segment) : inBlock (segment :: rest) n = segment.isCode := if_pos h

/-- The first block that is found stands between an opening fence and the first closing fence. -/
theorem blocks_scanLines_fenced {opening closing language : Text} {options body : List Text}
    (hopens : Fence.opening? opening = some (language, options))
    (hopen : ∀ line ∈ body, Fence.isClosing line = false) (hcloses : Fence.isClosing closing = true)
    (before rest : List Text) :
    blocks (scanLines before (opening :: (body ++ closing :: rest))) =
      ⟨language, options, body.flatten⟩ :: blocks (scanLines [] rest) := by
  rw [scanLines_fenced hopens hopen hcloses, blocks_append, blocks_ofLines, blocks, List.nil_append]

/-- The blocks that are found do not depend on the literal lines before them. -/
theorem Divides.blocks_scanLines {after : Bool} {ls : List Text} {segments : List Segment}
    (h : Divides after ls segments) (before : List Text) :
    blocks (scanLines before ls) = blocks segments := by
  induction h generalizing before with
  | nil => simp [scanLines, blocks]
  | unclosed _ _ hopen =>
    exact (blocks_scanLines_eq_nil_iff _ _).mpr (Fence.pairwise_cons_of_unclosed _ hopen)
  | literal _ hplain _ ih => rw [scanLines_append hplain, ih, blocks]
  | code _ hopens hopen hcloses _ ih =>
    rw [blocks_scanLines_fenced hopens hopen hcloses, ih, blocks]

/-- A line of two lists that are put together stands in the second one or in the first one. -/
theorem append_eq_append_cons {ls rest front back : List Text} {line : Text}
    (h : front ++ back = ls ++ line :: rest) :
    (∃ tail, ls = front ++ tail ∧ back = tail ++ line :: rest) ∨
      ∃ tail, front = ls ++ line :: tail ∧ rest = tail ++ back := by
  rcases List.append_eq_append_iff.mp h with ⟨tail, hls, hback⟩ | ⟨tail, hfront, hrest⟩
  · exact .inl ⟨tail, hls, hback⟩
  · cases tail with
    | nil => exact .inl ⟨[], by simpa using hfront.symm, by simpa using hrest.symm⟩
    | cons first tail =>
      rw [List.cons_append, List.cons.injEq] at hrest
      exact .inr ⟨tail, by rw [hfront, hrest.1], hrest.2⟩

/-- What holds of each line holds after one has been replaced by others of which it holds. -/
theorem forall_mem_replace {p : Text → Prop} {ls new tail : List Text} {line : Text}
    (h : ∀ l ∈ ls ++ line :: tail, p l) (hnew : ∀ l ∈ new, p l) :
    ∀ l ∈ ls ++ (new ++ tail), p l := by
  simp only [List.forall_mem_append, List.forall_mem_cons] at h ⊢
  exact ⟨h.1, hnew, h.2.2⟩

/-- A line is replaced by others, none of which is a fence. The blocks are the same exactly if the
line stands outside them: a block that it stands in gets another body. -/
theorem Divides.blocks_replace_iff {after : Bool} {all : List Text} {segments : List Segment}
    (h : Divides after all segments) (hlines : Text.brokenLines all.flatten = all)
    {ls rest new : List Text} {line : Text} (hall : all = ls ++ line :: rest)
    (hline : Fence.opening? line = none ∧ Fence.isClosing line = false)
    (hnew : ∀ l ∈ new, Fence.opening? l = none ∧ Fence.isClosing l = false)
    (hlength : new.flatten.length ≠ line.length) (before : List Text) :
    blocks (scanLines before (ls ++ (new ++ rest))) = blocks segments ↔
      inBlock segments ls.length = false := by
  obtain ⟨hnewPlain, hnewOpen⟩ := forall₂_and.mp hnew
  induction h generalizing ls before with
  | nil => simp at hall
  | unclosed _ hopens hopen =>
    refine iff_of_true ((blocks_scanLines_eq_nil_iff _ _).mpr ?_) (by simp [inBlock, isCode])
    cases ls with
    | nil =>
      rw [List.nil_append, List.cons.injEq] at hall
      rw [hall.1, hline.1] at hopens
      cases hopens
    | cons first ls =>
      rw [List.cons_append, List.cons.injEq] at hall
      rw [hall.2] at hopen
      exact Fence.pairwise_cons_of_unclosed _ (forall_mem_replace hopen hnewOpen)
  | @literal lits more segments _ hplain hmore ih =>
    have hheight : (Segment.literal lits.flatten).height = lits.length := by
      rw [height, Text.brokenLines_flatten_left hlines]
    rw [blocks]
    rcases append_eq_append_cons hall with ⟨tail, rfl, htail⟩ | ⟨tail, rfl, rfl⟩
    · rw [List.append_assoc, scanLines_append hplain,
        ih (Text.brokenLines_flatten_right hlines) htail, List.length_append, ← hheight,
        inBlock_cons_add]
    · have hlt : ls.length < (Segment.literal (ls ++ line :: tail).flatten).height := by
        rw [hheight]
        simp
      rw [inBlock_cons_of_lt hlt, ← List.append_assoc new, ← List.append_assoc ls,
        scanLines_append (forall_mem_replace hplain hnewPlain), hmore.blocks_scanLines]
      exact iff_of_true rfl rfl
  | @code _ opening closing language options body more segments hopens hopen hcloses _ ih =>
    obtain ⟨-, -, -, -, htail⟩ := brokenLines_middle [] hlines
    obtain ⟨-, -, -, hbody, hmore⟩ := brokenLines_middle _ htail
    have hheight : (Segment.code ⟨language, options, body.flatten⟩).height = body.length + 2 := by
      rw [height, hbody]
    -- The line is neither fence of the block, so it stands behind the block or in its body.
    rcases ls with _ | ⟨first, ls⟩
    · rw [List.nil_append, List.cons.injEq] at hall
      rw [hall.1, hline.1] at hopens
      cases hopens
    rw [List.cons_append, List.cons.injEq] at hall
    obtain ⟨rfl, hall⟩ := hall
    rcases append_eq_append_cons hall with ⟨tail, rfl, htail⟩ | ⟨tail, rfl, rfl⟩
    · rcases tail with _ | ⟨second, tail⟩
      · rw [List.nil_append, List.cons.injEq] at htail
        rw [htail.1, hline.2] at hcloses
        cases hcloses
      rw [List.cons_append, List.cons.injEq] at htail
      obtain ⟨rfl, rfl⟩ := htail
      have hplace : (opening :: (body ++ closing :: tail)).length =
          (Segment.code ⟨language, options, body.flatten⟩).height + tail.length := by
        rw [hheight, List.length_cons, List.length_append, List.length_cons]
        omega
      rw [hplace, inBlock_cons_add, ← ih hmore rfl [], List.cons_append, List.append_assoc,
        List.cons_append, blocks_scanLines_fenced hopens hopen hcloses, blocks, List.cons_inj_right]
    · have hlt : (opening :: ls).length <
          (Segment.code ⟨language, options, (ls ++ line :: tail).flatten⟩).height := by
        rw [hheight, List.length_cons, List.length_append, List.length_cons]
        omega
      rw [inBlock_cons_of_lt hlt, List.cons_append, ← List.append_assoc new,
        ← List.append_assoc ls,
        blocks_scanLines_fenced hopens (forall_mem_replace hopen hnewOpen) hcloses, blocks]
      -- The body gets longer or shorter, so it is another one.
      refine iff_of_false (fun heq ↦ hlength ?_) (by simp [isCode])
      have hbodies := congrArg (fun block ↦ block.body.length) (List.cons.inj heq).1
      simp only [List.flatten_append, List.flatten_cons, List.length_append] at hbodies
      omega

end Segment

/-! ### A marker that stands alone on its line -/

namespace Contents

/-- A text is what is left of it between blanks. -/
theorem exists_trim_append (t : Text) :
    ∃ s u, t = s ++ Text.trim t ++ u ∧ (∀ c ∈ s, Text.isBlank c = true) ∧
      ∀ c ∈ u, Text.isBlank c = true := by
  obtain ⟨u, hu, hall⟩ := Text.exists_trimEndWhere_append Text.isBlank (Text.trimStart t)
  refine ⟨t.takeWhile Text.isBlank, u, ?_, List.all_eq_true.mp List.all_takeWhile,
    List.all_eq_true.mp hall⟩
  rw [List.append_assoc, Text.trim, Text.trimEnd, ← hu]
  exact List.takeWhile_append_dropWhile.symm

/-- There is no line feed in a line before other characters. -/
theorem lineFeed_notMem_of_isLine {s t : Text} (h : Segment.IsLine (s ++ t)) (ht : t ≠ []) :
    '\n' ∉ s := by
  intro hmem
  obtain ⟨a, b, rfl⟩ := List.append_of_mem hmem
  have htext : a ++ '\n' :: b ++ t = (a ++ ['\n']) ++ (b ++ t) := by simp
  rw [Segment.IsLine, htext, Text.brokenLines_append (Text.endsLine_append_lineFeed a),
    List.append_eq_singleton_iff] at h
  rcases h with ⟨hnil, -⟩ | ⟨-, hnil⟩
  · cases List.append_eq_nil_iff.mp (Text.brokenLines_eq_nil_iff.mp hnil) with
    | intro _ hfeed => cases hfeed
  · exact ht (List.append_eq_nil_iff.mp (Text.brokenLines_eq_nil_iff.mp hnil)).2

/-- A line of a text may be replaced by a text that ends its last line if others follow. -/
theorem brokenLines_replace {document line new : Text} {ls rest : List Text}
    (h : Text.brokenLines document = ls ++ line :: rest)
    (hends : rest ≠ [] → Text.endsLine new = true) :
    Text.brokenLines (ls.flatten ++ (new ++ rest.flatten)) =
      ls ++ (Text.brokenLines new ++ rest) := by
  obtain ⟨-, -, hfront, hls, hrest⟩ := Segment.brokenLines_middle ls h
  rw [Text.brokenLines_append hfront, hls, List.append_cancel_left_eq]
  by_cases hnil : rest = []
  · rw [hnil]
    simp
  · rw [Text.brokenLines_append (hends hnil), hrest]

/-- No table of contents is as long as its marker. -/
theorem length_render_ne (headings : List Heading) :
    (render headings).length ≠ marker.length := by
  cases headings with
  | nil => decide
  | cons heading headings =>
    have hlength := length_item heading
    have hmarker : marker.length = 5 := rfl
    rw [render, List.flatMap_cons, List.length_append]
    omega

/-- The table of contents takes the place of the first marker. -/
theorem insert_eq {document front s t : Text} (hdocument : document = front ++ (s ++ marker ++ t))
    (hends : Text.endsLine front = true) (hfirst : Text.holds marker front = false)
    (hs : ∀ c ∈ s, Text.isBlank c = true) :
    insert document = front ++ (s ++ render (Heading.find document) ++ t) := by
  have hmarker : '[' ∉ s := fun hmem ↦ by cases hs '[' hmem
  have hbreak : Text.breakOn? marker document = some (front ++ s, t) := by
    rw [hdocument, Text.breakOn?_append_lines (by decide) hends hfirst, List.append_assoc, marker,
      Text.breakOn?_append_of_notMem hmarker, Text.breakOn?_append_self]
    simp
  rw [insert, Text.replaceFirst, hbreak]
  simp

/-- **A table of contents in its document.** If the first line with a marker holds nothing else, the
document has the same headings with the table as before, and it has the same blocks exactly if that
line lies outside the blocks. -/
theorem insert_frame {document line : Text} {ls rest : List Text}
    (hlines : Text.brokenLines document = ls ++ line :: rest)
    (hfirst : Text.holds marker ls.flatten = false) (halone : Text.trim line = marker) :
    Heading.find (insert document) = Heading.find document ∧
      (Segment.blocks (Segment.scan (insert document)) = Segment.blocks (Segment.scan document) ↔
        Segment.inBlock (Segment.scan document) ls.length = false) := by
  obtain ⟨hline, hends, hfront, -, -⟩ := Segment.brokenLines_middle ls hlines
  obtain ⟨s, t, heq, hs, ht⟩ := exists_trim_append line
  rw [halone] at heq
  let table := s ++ render (Heading.find document) ++ t
  have hinsert : insert document = ls.flatten ++ (table ++ rest.flatten) := by
    have hdocument : document = ls.flatten ++ (s ++ marker ++ (t ++ rest.flatten)) := by
      rw [← Text.flatten_brokenLines document, hlines, heq]
      simp
    rw [insert_eq hdocument hfront hfirst hs, ← List.append_assoc _ t]
  have hbroken : Text.brokenLines (insert document) = ls ++ (Text.brokenLines table ++ rest) := by
    rw [hinsert]
    refine brokenLines_replace hlines fun hne ↦ ?_
    -- What ends the line of the marker stands behind it, and so it ends the table.
    have hlast := hends hne
    have htail : t ≠ [] := by
      rintro rfl
      rw [heq, List.append_nil, Text.endsLine_append (by decide)] at hlast
      cases hlast
    rw [Text.endsLine_append htail]
    rwa [heq, Text.endsLine_append htail] at hlast
  have hprose : Heading.IsProse (Text.withoutLineEnd line) := by
    refine Heading.isProse_withoutLineEnd fun c hc ↦ ?_
    rw [heq, List.append_assoc, Text.trimStart_append hs] at hc
    rw [← Option.some.inj hc]
    decide
  have hfeed : '\n' ∉ s := by
    rw [heq, List.append_assoc] at hline
    exact lineFeed_notMem_of_isLine hline (List.cons_ne_nil _ _)
  have htable : ∀ l ∈ Text.brokenLines table, Heading.IsProse (Text.withoutLineEnd l) :=
    isProse_render (fun _ hheading ↦ lineFeed_notMem_title hheading) hs hfeed ht
  have hlength : (Text.brokenLines table).flatten.length ≠ line.length := by
    have := length_render_ne (Heading.find document)
    rw [Text.flatten_brokenLines, heq]
    simp only [table, List.length_append]
    omega
  have hold : ∀ l ∈ [line], Heading.IsProse (Text.withoutLineEnd l) := by simpa using hprose
  refine ⟨Heading.find_replace hlines hbroken hold htable, ?_⟩
  rw [Segment.scan, hbroken]
  exact (Segment.divides_scan document).blocks_replace_iff
    (congrArg Text.brokenLines (Text.flatten_brokenLines document)) hlines
    ⟨hprose.opening?_eq_none, hprose.isClosing_eq_false⟩
    (fun l hl ↦ ⟨(htable l hl).opening?_eq_none, (htable l hl).isClosing_eq_false⟩) hlength []

/-- A document whose table of contents carries the text of a fence, behind which a block follows. -/
def fenced : Text := "# ```sh exec\n [TOC]\n## ~~~\n```sh exec\necho\n```\n".toList

/-- The table of contents between a heading and a block. -/
theorem insert_fenced :
    Text.brokenLines fenced = ["# ```sh exec\n".toList] ++ " [TOC]\n".toList ::
      ["## ~~~\n".toList, "```sh exec\n".toList, "echo\n".toList, "```\n".toList] ∧
    Segment.inBlock (Segment.scan fenced) 1 = false ∧
    insert fenced = ("# ```sh exec\n * [```sh exec](#```sh-exec)\n\t* [~~~](#~~~)\n\n" ++
      "## ~~~\n```sh exec\necho\n```\n").toList ∧
    Heading.find (insert fenced) = Heading.find fenced ∧
    Segment.blocks (Segment.scan (insert fenced)) = Segment.blocks (Segment.scan fenced) := by
  have hlines : Text.brokenLines fenced = ["# ```sh exec\n".toList] ++ " [TOC]\n".toList ::
      ["## ~~~\n".toList, "```sh exec\n".toList, "echo\n".toList, "```\n".toList] := by
    decide +kernel
  have houtside : Segment.inBlock (Segment.scan fenced) 1 = false := by decide +kernel
  obtain ⟨hfind, hblocks⟩ := insert_frame hlines (by decide +kernel) (by decide +kernel)
  exact ⟨hlines, houtside, by decide +kernel, hfind, hblocks.mpr houtside⟩

end Contents

end Weave
