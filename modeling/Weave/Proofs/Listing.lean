import Weave.Proofs.Rendering
import Weave.Proofs.WrittenSegments

/-!
# Listings

A document whose blocks are shown but not run is listed. Listing a document that holds a block makes
it shorter, so a listing does not change when it is listed again exactly if it holds no block. A
shown block opens a new one in the listing if its language ends with the keyword, or if its body
holds an opening fence; its closing fence is then still there to close it.

## Main definitions

* `Weave.Segment.listing`: a document with its blocks shown but not run.
* `Weave.Fence.Unmatched`: two lines that are not the fences of a block.

## Main results

* `Weave.Segment.blocks_scanLines_eq_nil_iff`: which lines hold no block.
* `Weave.Segment.listing_eq_self_iff`: a document is its own listing exactly if it holds no block.
* `Weave.CodeRunner.run_twice`: when a second run without execution changes nothing.
-/

namespace Weave

/-! ### What an opening fence holds -/

namespace Fence

/-- A keyword that is found stands behind spaces and tabs. -/
theorem eq_append_of_afterKeyword? {t tail : Text} (h : afterKeyword? t = some tail) :
    ∃ gap, t = gap ++ keyword ++ tail ∧ (∀ c ∈ gap, Text.isSpaceOrTab c = true) ∧
      ∀ c, tail.head? = some c → Text.isSpaceOrTab c = true := by
  unfold afterKeyword? at h
  have htake : ∀ c ∈ t.takeWhile Text.isSpaceOrTab, Text.isSpaceOrTab c = true :=
    fun c hc ↦ List.all_eq_true.mp List.all_takeWhile c hc
  have hsplit : t = t.takeWhile Text.isSpaceOrTab ++ Text.trimStartWhere Text.isSpaceOrTab t :=
    List.takeWhile_append_dropWhile.symm
  cases hafter : Text.after? keyword (Text.trimStartWhere Text.isSpaceOrTab t) with
  | none => simp [hafter] at h
  | some rest =>
    rw [Text.after?_eq_some_iff.mp hafter, ← List.append_assoc] at hsplit
    cases rest with
    | nil =>
      obtain rfl : tail = [] := by simpa [hafter] using h.symm
      exact ⟨_, hsplit, htake, nofun⟩
    | cons c cs =>
      simp only [hafter, Option.ite_none_right_eq_some, Option.some.injEq] at h
      obtain ⟨⟨hc, -⟩, rfl⟩ := h
      exact ⟨_, hsplit, htake, fun d hd ↦ Option.some.inj hd ▸ hc⟩

/-- A language that is found is a token, and the keyword stands behind it. -/
theorem eq_append_of_language? {t language tail : Text} (h : language? t = some (language, tail)) :
    language.IsToken ∧ ∃ gap, t = language ++ gap ++ keyword ++ tail ∧
      (∀ c ∈ gap, Text.isSpaceOrTab c = true) ∧
      ∀ c, tail.head? = some c → Text.isSpaceOrTab c = true := by
  induction t generalizing language with
  | nil => simp [language?] at h
  | cons c cs ih =>
    rw [language?] at h
    by_cases hc : Text.isBlank c = true
    · simp [hc] at h
    · rw [if_neg hc] at h
      replace hc : Text.isBlank c = false := by simpa using hc
      cases hkeyword : afterKeyword? cs with
      | some found =>
        simp only [hkeyword, Option.some.injEq, Prod.mk.injEq] at h
        obtain ⟨rfl, rfl⟩ := h
        obtain ⟨gap, rfl, hgap, htail⟩ := eq_append_of_afterKeyword? hkeyword
        exact ⟨⟨by simp, by simpa using hc⟩, gap, by simp, hgap, htail⟩
      | none =>
        simp only [hkeyword, Option.map_eq_some_iff, Prod.mk.injEq] at h
        obtain ⟨⟨more, found⟩, hmore, rfl, rfl⟩ := h
        obtain ⟨htoken, gap, rfl, hgap, htail⟩ := ih hmore
        exact ⟨⟨by simp, List.forall_mem_cons.mpr ⟨hc, htoken.isBlank_eq_false⟩⟩, gap, by simp,
          hgap, htail⟩

/-- An opening fence without the line breaks at its end: the backquotes, the language and the
keyword, each behind spaces and tabs, and the options. -/
theorem eq_append_of_opening? {line language : Text} {options : List Text}
    (h : opening? line = some (language, options)) :
    language.IsToken ∧ ∃ gap gap' tail,
      Text.trimEndWhere Text.isLineBreak line =
        ticks ++ (gap ++ (language ++ gap' ++ keyword ++ tail)) ∧
      (∀ c ∈ gap ++ gap', Text.isSpaceOrTab c = true) ∧
      ∀ c, tail.head? = some c → Text.isSpaceOrTab c = true := by
  unfold opening? at h
  cases hafter : Text.after? ticks (Text.trimEndWhere Text.isLineBreak line) with
  | none => simp [hafter] at h
  | some rest =>
    simp only [hafter, Option.map_eq_some_iff, Prod.mk.injEq] at h
    obtain ⟨⟨found, tail⟩, hfound, rfl, -⟩ := h
    obtain ⟨htoken, gap', hrest, hgap', htail⟩ := eq_append_of_language? hfound
    have hgap : ∀ c ∈ rest.takeWhile Text.isSpaceOrTab, Text.isSpaceOrTab c = true :=
      fun c hc ↦ List.all_eq_true.mp List.all_takeWhile c hc
    have hsplit : rest = rest.takeWhile Text.isSpaceOrTab ++
        Text.trimStartWhere Text.isSpaceOrTab rest := List.takeWhile_append_dropWhile.symm
    rw [hrest] at hsplit
    refine ⟨htoken, rest.takeWhile Text.isSpaceOrTab, gap', tail, ?_, ?_, htail⟩
    · rw [Text.after?_eq_some_iff.mp hafter, ← hsplit]
    · exact fun c hc ↦ (List.mem_append.mp hc).elim (hgap c) (hgap' c)

/-- The line feed at the end of a line does not count. -/
theorem opening?_append_lineFeed (line : Text) : opening? (line ++ ['\n']) = opening? line := by
  rw [opening?, opening?, Text.trimEndWhere_append_of_pos (by decide)]

/-- A token behind the backquotes is an opening fence exactly if it ends with the keyword and does
not start with that. -/
theorem isSome_opening?_token_iff {token : Text} (h : token.IsToken) :
    (opening? (ticks ++ token)).isSome ↔ ∃ t, t ≠ [] ∧ token = t ++ keyword := by
  constructor
  · intro hopens
    obtain ⟨⟨language, options⟩, hopens⟩ := Option.isSome_iff_exists.mp hopens
    obtain ⟨hlanguage, gap, gap', tail, hline, hgaps, htail⟩ := eq_append_of_opening? hopens
    have hticks : ∀ c ∈ ticks ++ token, Text.isLineBreak c = false := by
      intro c hc
      rcases List.mem_append.mp hc with hc | hc
      · exact Text.eq_false_of_any (by decide) c hc
      · exact Text.isLineBreak_eq_false (h.isBlank_eq_false c hc)
    rw [Text.trimEndWhere_eq_self hticks, List.append_cancel_left_eq] at hline
    -- There is no blank in a token, so nothing stands before, between or behind the two.
    have hnone : ∀ c ∈ token, Text.isSpaceOrTab c = false :=
      fun c hc ↦ Text.isSpaceOrTab_eq_false (h.isBlank_eq_false c hc)
    have hgap : ∀ c ∈ gap ++ gap', False := fun c hc ↦ by
      have hmem : c ∈ token := by
        rw [hline]
        rcases List.mem_append.mp hc with hc | hc <;> simp [hc]
      exact absurd (hgaps c hc) (by simp [hnone c hmem])
    obtain ⟨rfl, rfl⟩ := List.append_eq_nil_iff.mp (List.eq_nil_iff_forall_not_mem.mpr hgap)
    obtain rfl : tail = [] := by
      cases tail with
      | nil => rfl
      | cons c cs =>
        have hmem : c ∈ token := by simp [hline]
        exact absurd (htail c rfl) (by simp [hnone c hmem])
    exact ⟨language, hlanguage.ne_nil, by simpa using hline⟩
  · rintro ⟨t, hne, rfl⟩
    have htoken : Text.IsToken t :=
      ⟨hne, fun c hc ↦ h.isBlank_eq_false c (List.mem_append_left _ hc)⟩
    have hopens := opening?_written htoken (List.forall_mem_nil Text.IsToken)
    rw [List.flatMap_nil, List.append_nil, opening?_append_lineFeed, List.append_assoc] at hopens
    rw [hopens]
    rfl

/-- An opening fence that ends its line is longer than its language by the backquotes, the keyword
and the line feed. -/
theorem length_of_opening? {line language : Text} {options : List Text}
    (h : opening? line = some (language, options)) (hends : Text.endsLine line = true) :
    language.length + 8 ≤ line.length := by
  obtain ⟨-, gap, gap', tail, htrim, -⟩ := eq_append_of_opening? h
  cases hlast : line.getLast? with
  | none =>
    rw [List.getLast?_eq_none_iff.mp hlast] at htrim
    cases htrim
  | some c =>
    obtain rfl : c = '\n' := by simpa [Text.endsLine, hlast] using hends
    obtain ⟨front, rfl⟩ := List.getLast?_eq_some_iff.mp hlast
    rw [Text.trimEndWhere_append_of_pos (by decide)] at htrim
    have hlength := Text.length_trimEndWhere_le Text.isLineBreak front
    rw [htrim] at hlength
    simp only [ticks, keyword, List.length_append, List.length_cons, List.length_nil] at hlength ⊢
    omega

theorem length_of_isClosing {line : Text} (h : isClosing line = true) : 3 ≤ line.length := by
  have htrim : Text.trimEnd line = ticks := by simpa [isClosing] using h
  have hlength := Text.length_trimEndWhere_le Text.isBlank line
  rw [← Text.trimEnd, htrim] at hlength
  exact hlength

/-- Two lines that are not the opening fence and the closing fence of a block. -/
def Unmatched (opening closing : Text) : Prop :=
  (opening? opening).isSome → isClosing closing = false

/-- A line that is no opening fence opens nothing that the lines behind it could close. -/
theorem pairwise_cons_of_plain {line : Text} (h : opening? line = none) (rest : List Text) :
    (line :: rest).Pairwise Unmatched ↔ rest.Pairwise Unmatched := by
  have hplain : ∀ other ∈ rest, Unmatched line other := fun other _ hopens ↦ by
    rw [h] at hopens
    cases hopens
  rw [List.pairwise_cons]
  exact ⟨And.right, fun hrest ↦ ⟨hplain, hrest⟩⟩

/-- A fence that is not closed opens nothing that the lines behind it could close. -/
theorem pairwise_cons_of_unclosed (line : Text) {rest : List Text}
    (h : ∀ other ∈ rest, isClosing other = false) : (line :: rest).Pairwise Unmatched :=
  List.pairwise_cons.mpr ⟨fun other hother _ ↦ h other hother,
    List.pairwise_of_forall_mem_list fun _ _ other hother _ ↦ h other hother⟩

theorem pairwise_append_of_plain {ls : List Text} (h : ∀ line ∈ ls, opening? line = none)
    (rest : List Text) : (ls ++ rest).Pairwise Unmatched ↔ rest.Pairwise Unmatched := by
  induction ls with
  | nil => rfl
  | cons line ls ih =>
    obtain ⟨hline, hls⟩ := List.forall_mem_cons.mp h
    rw [List.cons_append, pairwise_cons_of_plain hline, ih hls]

/-- Before a closing fence, none of the lines may be an opening fence. -/
theorem pairwise_append_closing {ls : List Text} {closing : Text}
    (hcloses : isClosing closing = true) (hplain : opening? closing = none) (rest : List Text) :
    (ls ++ closing :: rest).Pairwise Unmatched ↔
      (∀ line ∈ ls, opening? line = none) ∧ rest.Pairwise Unmatched := by
  constructor
  · intro hpairs
    obtain ⟨-, hrest, hcross⟩ := List.pairwise_append.mp hpairs
    refine ⟨fun line hline ↦ Option.not_isSome_iff_eq_none.mp fun hopens ↦ ?_,
      (List.pairwise_cons.mp hrest).2⟩
    have := hcross line hline closing List.mem_cons_self hopens
    rw [hcloses] at this
    cases this
  · rintro ⟨hls, hrest⟩
    rw [pairwise_append_of_plain hls]
    exact (pairwise_cons_of_plain hplain rest).mpr hrest

end Fence

namespace Segment

/-! ### Lines without a block -/

@[simp] theorem blocks_append (segments rest : List Segment) :
    blocks (segments ++ rest) = blocks segments ++ blocks rest := by
  induction segments with
  | nil => rfl
  | cons segment segments ih => cases segment <;> simp [blocks, ih]

@[simp] theorem blocks_ofLines (ls : List Text) : blocks (ofLines ls) = [] := by
  unfold ofLines
  split <;> rfl

/-- There is no block exactly if no opening fence has a closing fence behind it. -/
theorem blocks_scanLines_eq_nil_iff (before ls : List Text) :
    blocks (scanLines before ls) = [] ↔ ls.Pairwise Fence.Unmatched := by
  fun_induction scanLines before ls with
  | case1 before => simp
  | case2 before line rest hline ih =>
    rw [ih]
    exact (Fence.pairwise_cons_of_plain hline rest).symm
  | case3 before line rest language options hline hsplit =>
    have hpairs := Fence.pairwise_cons_of_unclosed line (splitAtClosing?_eq_none hsplit)
    simpa [blocks] using hpairs
  | case4 before line rest language options hline body after hsplit ih =>
    obtain ⟨closing, rfl, hcloses, -⟩ := eq_append_of_splitAtClosing? hsplit
    simp only [blocks_append, blocks_ofLines, blocks, List.nil_append, reduceCtorEq, false_iff]
    intro hpairs
    have := (List.pairwise_cons.mp hpairs).1 closing (by simp) (by simp [hline])
    rw [hcloses] at this
    cases this

/-! ### Listings -/

/-- A segment as it is shown if blocks are not run. -/
def listed : Segment → Text
  | .literal text => text
  | .code block => CodeRunner.shownSource block.fenceOptions block

/-- A document with its blocks shown but not run. -/
def listing (document : Text) : Text := (scan document).flatMap listed

/-- The warnings about the options of blocks. -/
def remarks (segments : List Segment) : List Event :=
  (blocks segments).flatMap fun block ↦ FenceOptions.warnings block.options

/-- Nothing stands on the last line of a block that is shown. -/
theorem endsLine_listed (block : CodeBlock) : Text.endsLine (listed (.code block)) = true := by
  rw [listed, CodeRunner.shownSource]
  split
  · rfl
  · rw [CodeRunner.renderSource, Text.endsLine_append (by simp)]
    rfl

/-- The lines of the source of a block: two fences with the body between them, and an empty line. -/
theorem brokenLines_renderSource {block : CodeBlock} (hlanguage : block.language.IsToken)
    (hbody : Text.endsLine block.body = true) :
    Text.brokenLines (CodeRunner.renderSource block) =
      ((Fence.ticks ++ block.language ++ ['\n']) :: Text.brokenLines block.body) ++
        (Fence.ticks ++ ['\n']) :: [['\n']] := by
  have hfeed : '\n' ∉ Fence.ticks ++ block.language := fun hmem ↦ by
    rcases List.mem_append.mp hmem with hmem | hmem
    · exact absurd hmem (by decide)
    · cases hlanguage.isBlank_eq_false _ hmem
  have hsource : CodeRunner.renderSource block = (Fence.ticks ++ block.language ++ ['\n']) ++
      (block.body ++ (Fence.ticks ++ ['\n', '\n'])) := by
    simp [CodeRunner.renderSource]
  rw [hsource, Text.brokenLines_append (Text.endsLine_append_lineFeed _),
    Text.brokenLines_append_lineFeed hfeed, Text.brokenLines_append hbody]
  rfl

variable {after : Bool} {ls : List Text} {segments : List Segment}

/-- The languages of blocks are tokens. -/
theorem Divides.isToken_language (h : Divides after ls segments) :
    ∀ block ∈ blocks segments, block.language.IsToken := by
  induction h with
  | nil => exact nofun
  | unclosed => exact nofun
  | literal _ _ _ ih => exact ih
  | code _ hopens _ _ _ ih =>
    exact List.forall_mem_cons.mpr ⟨(Fence.eq_append_of_opening? hopens).1, ih⟩

end Segment

/-- A block that is shown opens no other one: neither its language nor its body makes an opening
fence. -/
def CodeBlock.IsSettled (block : CodeBlock) : Prop :=
  block.fenceOptions.noCode = false → Fence.opening? (Fence.ticks ++ block.language) = none ∧
    ∀ line ∈ Text.brokenLines block.body, Fence.opening? line = none

namespace Segment

variable {after : Bool} {ls : List Text} {segments : List Segment}

/-- A block that is shown, with the lines behind it, opens nothing that is closed again exactly if
it opens no other block and those lines do not either. -/
theorem pairwise_listed_append {block : CodeBlock} (hlanguage : block.language.IsToken)
    (hbody : Text.endsLine block.body = true) (rest : List Text) :
    (Text.brokenLines (listed (.code block)) ++ rest).Pairwise Fence.Unmatched ↔
      block.IsSettled ∧ rest.Pairwise Fence.Unmatched := by
  rw [listed, CodeRunner.shownSource, CodeBlock.IsSettled]
  cases block.fenceOptions.noCode with
  | true => simp
  | false =>
    have hcloses : Fence.isClosing (Fence.ticks ++ ['\n']) = true := by decide
    have hempty : Fence.opening? ['\n'] = none := by decide
    have hlines : Text.brokenLines (CodeRunner.renderSource block) ++ rest =
        ((Fence.ticks ++ block.language ++ ['\n']) :: Text.brokenLines block.body) ++
          (Fence.ticks ++ ['\n']) :: ['\n'] :: rest := by
      rw [brokenLines_renderSource hlanguage hbody, List.append_assoc]
      rfl
    rw [if_neg (by simp), hlines, Fence.pairwise_append_closing hcloses (by decide),
      Fence.pairwise_cons_of_plain hempty, List.forall_mem_cons, Fence.opening?_append_lineFeed]
    simp

/-- A listing holds no block exactly if every block that is shown opens no other one. -/
theorem Divides.pairwise_listed_iff (h : Divides after ls segments)
    (hls : Text.brokenLines ls.flatten = ls) :
    (segments.flatMap fun segment ↦ Text.brokenLines (listed segment)).Pairwise Fence.Unmatched ↔
      ∀ block ∈ blocks segments, block.IsSettled := by
  induction h with
  | nil => simp [blocks]
  | @unclosed _ line _ hopens hopen =>
    rw [List.flatMap_singleton, listed, hls]
    simpa [blocks] using Fence.pairwise_cons_of_unclosed line hopen
  | @literal ls rest segments _ hplain _ ih =>
    rw [List.flatMap_cons, listed, Text.brokenLines_flatten_left hls,
      Fence.pairwise_append_of_plain hplain, ih (Text.brokenLines_flatten_right hls), blocks]
  | code _ hopens _ _ _ ih =>
    obtain ⟨-, -, -, -, htail⟩ := brokenLines_middle [] hls
    obtain ⟨-, -, hbody, -, hrest⟩ := brokenLines_middle _ htail
    rw [List.flatMap_cons, pairwise_listed_append (Fence.eq_append_of_opening? hopens).1 hbody,
      ih hrest, blocks, List.forall_mem_cons]

/-! ### Listings of listings -/

/-- A block is longer than what is shown of it without its result. -/
theorem Region.length_listed {segment : Segment} {region : Text} (h : Region segment region) :
    (listed segment).length + 2 * (blocks [segment]).length ≤ region.length := by
  cases h with
  | literal => simp [listed, blocks]
  | @code language body opening closing options _ hends hopens _ _ _ hcloses =>
    have hopening := Fence.length_of_opening? hopens hends
    have hclosing := Fence.length_of_isClosing hcloses
    simp only [listed, CodeRunner.shownSource, blocks, List.length_append]
    split
    · simp
      omega
    · simp [CodeRunner.renderSource, Fence.ticks]
      omega

/-- Listing makes a document shorter by at least two characters for each block. -/
theorem length_listed_le {regions : List Text} (h : List.Forall₂ Region segments regions) :
    (segments.flatMap listed).length + 2 * (blocks segments).length ≤ regions.flatten.length := by
  induction h with
  | nil => simp [blocks]
  | @cons segment region segments regions hregion _ ih =>
    have hlength := hregion.length_listed
    have hblocks : (blocks (segment :: segments)).length =
        (blocks [segment]).length + (blocks segments).length := by
      rw [← List.length_append, ← blocks_append, List.singleton_append]
    rw [List.flatMap_cons, List.flatten_cons, List.length_append, List.length_append]
    omega

/-- Nothing but blocks is changed. -/
theorem flatMap_listed_of_blocks_eq_nil {regions : List Text}
    (h : List.Forall₂ Region segments regions) (hnone : blocks segments = []) :
    segments.flatMap listed = regions.flatten := by
  induction h with
  | nil => rfl
  | cons hregion _ ih =>
    cases hregion with
    | literal => rw [List.flatMap_cons, List.flatten_cons, ih hnone, listed]
    | code => cases hnone

/-- A document is its own listing exactly if it holds no block. -/
theorem listing_eq_self_iff (document : Text) :
    listing document = document ↔ blocks (scan document) = [] := by
  obtain ⟨⟨regions, hdocument, -, -, hregions⟩, -⟩ := scan_covers document
  constructor
  · intro h
    have hlength := length_listed_le hregions
    rw [← listing, h, hdocument] at hlength
    exact List.eq_nil_of_length_eq_zero (by omega)
  · intro h
    rw [listing, flatMap_listed_of_blocks_eq_nil hregions h, hdocument]

/-- A listing does not change when it is listed again exactly if every block that is shown opens no
other one. -/
theorem listing_listing_iff (document : Text) :
    listing (listing document) = listing document ↔
      ∀ block ∈ blocks (scan document), block.IsSettled := by
  have hdivides := divides_scan document
  have hls := congrArg Text.brokenLines (Text.flatten_brokenLines document)
  rw [listing_eq_self_iff, scan, blocks_scanLines_eq_nil_iff, listing,
    hdivides.brokenLines_flatMap (fun _ ↦ rfl) endsLine_listed hls,
    hdivides.pairwise_listed_iff hls]

end Segment

/-! ### Runs that do not run blocks -/

theorem Scene.logged_logged {ω : Type} (scene : Scene ω) (events more : List Event) :
    (scene.logged events).logged more = scene.logged (events ++ more) := by
  simp [Scene.logged]

namespace CodeRunner

variable {ω σ : Type} {runner : CodeRunner σ} (host : Host ω σ)

/-- Segments are rendered as they are listed, if blocks are not run or there are none. -/
theorem renderSegments_listed {segments : List Segment}
    (h : runner.noExec = true ∨ Segment.blocks segments = []) (scene : Scene ω) :
    (runner.renderSegments host segments).outcome scene =
      (.ok (segments.flatMap Segment.listed, runner), scene.logged (Segment.remarks segments)) := by
  induction segments generalizing scene with
  | nil => simp [renderSegments, Segment.remarks, Segment.blocks]
  | cons segment rest ih =>
    cases segment with
    | literal text =>
      rw [renderSegments, Task.outcome_bind, ih h]
      rfl
    | code block =>
      have hdisabled : runner.noExec = true := h.resolve_right (List.cons_ne_nil _ _)
      have hblock : (runner.renderBlock host block).outcome scene =
          (.ok (Segment.listed (.code block), runner),
            scene.logged (FenceOptions.warnings block.options)) := by
        rw [renderBlock, Task.outcome_bind, Task.outcome_emitAll, hdisabled]
        rfl
      rw [renderSegments, Task.outcome_bind, hblock]
      dsimp only
      rw [Task.outcome_bind, ih (.inl hdisabled)]
      simp [Segment.remarks, Segment.blocks, Scene.logged]

/-- There is nothing to stop where no session is running. -/
theorem stopEach_of_idle {entries : List (Text × Interpreter σ)}
    (h : ∀ entry ∈ entries, entry.2.session = none) (scene : Scene ω) :
    (stopEach host entries).outcome scene = (.ok entries, scene) := by
  induction entries with
  | nil => rfl
  | cons entry entries ih =>
    obtain ⟨name, interpreter⟩ := entry
    have hnone : interpreter.session = none := h _ List.mem_cons_self
    have hstop : (interpreter.stop host).outcome scene = (.ok interpreter, scene) := by
      rw [Interpreter.stop, hnone]
      rfl
    rw [stopEach, Task.outcome_bind, hstop]
    dsimp only
    rw [Task.outcome_bind, ih fun other hother ↦ h other (List.mem_cons_of_mem _ hother)]
    rfl

/-- The interpreters of a new runner have not been started. -/
theorem mem_entries_new {options : RunOptions} {settings : Settings} {workspace : Text}
    {entry : Text × Interpreter σ}
    (h : entry ∈ (new options settings workspace).interpreters.entries) :
    entry.2.session = none ∧ entry.2.spawnCount = 0 := by
  obtain ⟨profile, -, rfl⟩ := List.mem_map.mp h
  exact ⟨rfl, rfl⟩

/-- A runner without a running session lists a document, if blocks are not run or there are none. It
changes nothing but the log. -/
theorem run_listed (hidle : ∀ entry ∈ runner.interpreters.entries, entry.2.session = none)
    {document : Text}
    (h : runner.noExec = true ∨ Segment.blocks (Segment.scan document) = []) (scene : Scene ω) :
    (runner.run host document).outcome scene =
      (.ok (Segment.listing document, runner),
        scene.logged (Segment.remarks (Segment.scan document) ++ Segment.warnings document)) := by
  rw [run, Task.outcome_bind, renderSegments_listed host h]
  dsimp only
  rw [Task.outcome_bind, Task.outcome_emitAll]
  dsimp only
  rw [Task.outcome_bind, stopSessions, Task.outcome_bind, stopEach_of_idle host hidle]
  simp [Segment.listing, Scene.logged]

/-- A new runner that does not run blocks lists the document, changes nothing, and is as new
afterwards. -/
theorem run_listing (options : RunOptions) (settings : Settings) (workspace document : Text)
    (scene : Scene ω) :
    let runner : CodeRunner σ := .new { options with noExec := true } settings workspace
    ∃ events, (runner.run host document).outcome scene =
      (.ok (Segment.listing document, runner), scene.logged events) :=
  ⟨_, run_listed host (fun _ hentry ↦ (mem_entries_new hentry).1) (.inl rfl) scene⟩

/-- **Rendering twice without running blocks.** A run that does not run blocks changes nothing but
its document, and the log. What it returns is what a second run returns exactly if each block that
is shown has a language that makes no opening fence behind the backquotes, and a body without an
opening fence. That is so if no body holds an opening fence and no language ends with the keyword
after another character. -/
theorem run_twice (options : RunOptions) (settings : Settings) (workspace document : Text)
    (scene : Scene ω) :
    let runner : CodeRunner σ := .new { options with noExec := true } settings workspace
    ∃ once twice events more,
      (runner.run host document).outcome scene = (.ok (once, runner), scene.logged events) ∧
      (runner.run host once).outcome (scene.logged events) =
        (.ok (twice, runner), scene.logged (events ++ more)) ∧
      (twice = once ↔ ∀ block ∈ Segment.blocks (Segment.scan document),
        block.fenceOptions.noCode = false →
          Fence.opening? (Fence.ticks ++ block.language) = none ∧
          ∀ line ∈ Text.brokenLines block.body, Fence.opening? line = none) ∧
      ((∀ block ∈ Segment.blocks (Segment.scan document),
        (∀ line ∈ Text.brokenLines block.body, Fence.opening? line = none) ∧
          ∀ t, t ≠ [] → block.language ≠ t ++ Fence.keyword) → twice = once) := by
  intro runner
  obtain ⟨events, honce⟩ := run_listing host options settings workspace document scene
  obtain ⟨more, htwice⟩ := run_listing host options settings workspace (Segment.listing document)
    (scene.logged events)
  rw [Scene.logged_logged] at htwice
  refine ⟨_, _, events, more, honce, htwice, Segment.listing_listing_iff document, fun h ↦ ?_⟩
  refine (Segment.listing_listing_iff document).mpr fun block hblock _ ↦ ⟨?_, (h block hblock).1⟩
  have htoken := (Segment.divides_scan document).isToken_language block hblock
  refine Option.not_isSome_iff_eq_none.mp fun hopens ↦ ?_
  obtain ⟨t, hne, hlanguage⟩ := (Fence.isSome_opening?_token_iff htoken).mp hopens
  exact (h block hblock).2 t hne hlanguage

end CodeRunner

end Weave
