import SmartDnsPlusUi.Config.ManagedBlock
import SmartDnsPlusUi.Config.Pages

/-!
# The preview and the includes

SmartDNS reads the managed files in the order of the `conf-file` lines; the
preview shows them in the order of its own list, in which the sets come after
the rules.  The two yield the same logical lines exactly when moving the sets
behind the routing and the rules makes no difference.
-/

namespace SmartDnsPlusUi

open Text

/-! ### What the includes load -/

/-- The path in a `conf-file` line. -/
def includedPath (line : Text) : Option Text :=
  let keyword : Text := "conf-file "
  if keyword <+: line then some (line.drop keyword.length) else none

/-- A `conf-file` line stands for the logical lines of the file it names. -/
def expandLine (contents : Text → Text) (line : Text) : List Text :=
  match includedPath line with
  | some path => logicalLines (contents path)
  | none => logicalLines line

/-- What SmartDNS reads from a main configuration with a managed block. -/
def loadedLines (contents : Text → Text) (mainConfigText rulesDir : Text) : List Text :=
  match splitAtFirst (managedBlock rulesDir) mainConfigText with
  | some (before, after) =>
      logicalLines before ++ (lines (managedBlock rulesDir)).flatMap (expandLine contents) ++
        logicalLines after
  | none => logicalLines mainConfigText

/-- The managed texts, in the order of the `conf-file` lines. -/
def includedTexts (pages : ManagedPageTexts) : List Text :=
  [pages.service, pages.upstreams, pages.performance, pages.sets, pages.routing, pages.rules,
    pages.logging, pages.network]

theorem includedPath_includeLine (rulesDir name : Text) :
    includedPath (includeLine rulesDir name) = some (managedPath rulesDir name) := by
  have stripped : ∀ keyword path : Text, (if keyword <+: keyword ++ path then
      some ((keyword ++ path).drop keyword.length) else none) = some path := by
    intro keyword path
    rw [if_pos ( List.prefix_append keyword path), List.drop_left]
  exact stripped "conf-file ".toList (managedPath rulesDir name)

theorem oneLine_managedFileNames :
    ∀ name ∈ managedFileNames, name ≠ [] ∧ '\n' ∉ name ∧ name.getLast? ≠ some '\r' := by
  decide

theorem not_mem_managedPath {rulesDir : Text} (oneLine : '\n' ∉ rulesDir) {name : Text}
    (membership : name ∈ managedFileNames) : '\n' ∉ managedPath rulesDir name := by
  have newline : '\n' ≠ '/' := by decide
  intro present
  rcases mem_pathJoin present with inDir | separator | inName
  · rcases mem_pathJoin inDir with inParent | separator | inName
    · apply oneLine
      cases found : parent rulesDir with
      | none => simpa [found] using inParent
      | some dir =>
          rw [found, Option.getD_some] at inParent
          exact (parent_isPrefix found).subset inParent
    · exact newline separator
    · exact absurd inName (by decide)
  · exact newline separator
  · exact (oneLine_managedFileNames name membership).2.1 inName

theorem not_mem_includeLines {rulesDir : Text} (oneLine : '\n' ∉ rulesDir) :
    ∀ line ∈ includeLines rulesDir, '\n' ∉ line := by
  intro line membership present
  obtain ⟨name, nameMem, rfl⟩ := List.mem_map.mp membership
  rcases List.mem_append.mp present with inKeyword | inPath
  · exact absurd inKeyword (by decide)
  · exact not_mem_managedPath oneLine nameMem inPath

theorem dropReturn_includeLine (rulesDir : Text) {name : Text}
    (membership : name ∈ managedFileNames) :
    dropReturn (includeLine rulesDir name) = includeLine rulesDir name := by
  obtain ⟨nonempty, -, last⟩ := oneLine_managedFileNames name membership
  obtain ⟨front, path⟩ := pathJoin_eq_append (managedConfDir rulesDir) name
  unfold dropReturn includeLine
  rw [managedPath, path, ← List.append_assoc, List.getLast?_append_of_ne_nil _ nonempty,
    if_neg last]

/-- The lines of the block, followed by a line feed or not. -/
def blockLines (rulesDir : Text) : List Text :=
  managedBegin :: includeLines rulesDir ++ [managedEnd]

theorem map_dropReturn_blockLines (rulesDir : Text) :
    (blockLines rulesDir).map dropReturn = blockLines rulesDir := by
  have markers : dropReturn managedBegin = managedBegin ∧ dropReturn managedEnd = managedEnd := by
    decide
  have included : (includeLines rulesDir).map dropReturn = includeLines rulesDir := by
    rw [includeLines, List.map_map]
    exact List.map_congr_left fun name membership => dropReturn_includeLine rulesDir membership
  simp [blockLines, markers, included]

theorem not_mem_blockLines {rulesDir : Text} (oneLine : '\n' ∉ rulesDir) :
    ∀ line ∈ blockLines rulesDir, '\n' ∉ line := by
  have markers : '\n' ∉ managedBegin ∧ '\n' ∉ managedEnd := by decide
  have included := not_mem_includeLines oneLine
  simp only [blockLines, List.mem_append, List.mem_cons, List.not_mem_nil, or_false]
  rintro line ((rfl | membership) | rfl)
  · exact markers.1
  · exact included line membership
  · exact markers.2

theorem lines_managedBlock {rulesDir : Text} (oneLine : '\n' ∉ rulesDir) :
    lines (managedBlock rulesDir) = blockLines rulesDir := by
  have free := not_mem_blockLines oneLine
  have closing : lines managedEnd = [managedEnd].map dropReturn := by decide
  rw [managedBlock_eq, lines_unlines_append, closing, ← List.map_append]
  · exact map_dropReturn_blockLines rulesDir
  · intro line membership
    exact free line (List.mem_append_left _ membership)

theorem expandLine_managedBlock (contents : Text → Text) {rulesDir : Text}
    (oneLine : '\n' ∉ rulesDir) :
    (lines (managedBlock rulesDir)).flatMap (expandLine contents) =
      (includedTexts (readManagedPageTexts contents rulesDir)).flatMap logicalLines := by
  have markers : includedPath managedBegin = none ∧ includedPath managedEnd = none := by decide
  have comments : logicalLines managedBegin = [] ∧ logicalLines managedEnd = [] := by decide
  have included : (includeLines rulesDir).flatMap (expandLine contents) =
      (managedFileNames.map (managedPath rulesDir)).flatMap (logicalLines <| contents ·) := by
    rw [includeLines, List.flatMap_map, List.flatMap_map]
    exact List.flatMap_congr fun name _ => by simp only [expandLine, includedPath_includeLine]
  have opening : expandLine contents managedBegin = [] := by
    simp only [expandLine, markers.1, comments.1]
  have closing : expandLine contents managedEnd = [] := by
    simp only [expandLine, markers.2, comments.2]
  have texts : includedTexts (readManagedPageTexts contents rulesDir) =
      (managedFileNames.map (managedPath rulesDir)).map contents := rfl
  rw [lines_managedBlock oneLine, blockLines, List.cons_append, List.flatMap_cons,
    List.flatMap_append, List.flatMap_singleton, included, opening, closing, texts,
    List.flatMap_map, List.flatMap_map, List.flatMap_map, List.append_nil, List.nil_append]

/-! ### What the preview shows -/

theorem previewLines_append {ls : List Text} (noMarker : ∀ line ∈ ls, trim line ≠ managedBegin)
    (texts rest : List Text) :
    previewLines texts false (ls ++ rest) = ls ++ previewLines texts false rest := by
  induction ls with
  | nil => rfl
  | cons line ls inductionHypothesis =>
      simp only [List.mem_cons, forall_eq_or_imp] at noMarker
      rw [List.cons_append, previewLines, if_neg noMarker.1, inductionHypothesis noMarker.2]
      rfl

/-- Inside the block, lines are passed over up to an end marker. -/
theorem previewLines_skip {ls : List Text}
    (noMarker : ∀ line ∈ ls, trim line ≠ managedBegin ∧ trim line ≠ managedEnd)
    (texts rest : List Text) :
    previewLines texts true (ls ++ rest) = previewLines texts true rest := by
  induction ls with
  | nil => rfl
  | cons line ls inductionHypothesis =>
      simp only [List.mem_cons, forall_eq_or_imp] at noMarker
      rw [List.cons_append, previewLines, if_neg noMarker.1.1, if_neg noMarker.1.2,
        inductionHypothesis noMarker.2]
      rfl

theorem trim_includeLine_ne (rulesDir name : Text) :
    trim (includeLine rulesDir name) ≠ managedBegin ∧
      trim (includeLine rulesDir name) ≠ managedEnd := by
  have markers : managedBegin.head? = some '#' ∧ managedEnd.head? = some '#' := by decide
  have starts : includeLine rulesDir name =
      'c' :: (("onf-file " : Text) ++ managedPath rulesDir name) := rfl
  have opening : (trim (includeLine rulesDir name)).head? ≠ some '#' := by
    rw [starts, head?_trim_cons (by decide)]
    decide
  constructor <;> intro same <;> simp [same, markers] at opening

theorem previewLines_blockLines (texts rest : List Text) (rulesDir : Text) :
    previewLines texts false (blockLines rulesDir ++ rest) =
      managedBegin :: insertedLines texts ++ managedEnd :: previewLines texts false rest := by
  have skipped : ∀ line ∈ includeLines rulesDir,
      trim line ≠ managedBegin ∧ trim line ≠ managedEnd := by
    intro line membership
    obtain ⟨name, -, rfl⟩ := List.mem_map.mp membership
    exact trim_includeLine_ne rulesDir name
  have trims : trim managedBegin = managedBegin ∧ trim managedEnd = managedEnd := by decide
  have distinct : managedEnd ≠ managedBegin := by decide
  rw [blockLines, List.cons_append, List.cons_append, previewLines, if_pos trims.1,
    List.append_assoc, previewLines_skip skipped, List.singleton_append, previewLines, trims.2,
    if_neg distinct, if_pos rfl]
  rfl

/-- The lines of the text before the block, with the empty line after them. -/
def linesBefore (mainConfigText : Text) : List Text :=
  if trimEnd mainConfigText = [] then []
  else ((trimEnd mainConfigText).splitOn '\n').map dropReturn ++ [[]]

theorem lines_surrounded (before rest : Text) {rulesDir : Text} (oneLine : '\n' ∉ rulesDir) :
    lines (textBeforeBlock before ++ managedBlock rulesDir ++ '\n' :: rest) =
      linesBefore before ++ blockLines rulesDir ++ lines rest := by
  have block : managedBlock rulesDir ++ '\n' :: rest = unlines (blockLines rulesDir) ++ rest := by
    rw [managedBlock_eq, blockLines, unlines_append]
    simp
  have below : lines (managedBlock rulesDir ++ '\n' :: rest) =
      blockLines rulesDir ++ lines rest := by
    rw [block, lines_unlines_append (not_mem_blockLines oneLine), map_dropReturn_blockLines]
  unfold linesBefore
  simp only [textBeforeBlock, List.append_assoc]
  by_cases empty : trimEnd before = []
  · rw [if_pos empty, if_pos empty, List.nil_append, below, List.nil_append]
  · have gap := lines_append_newline (List.not_mem_nil : '\n' ∉ [])
      (managedBlock rulesDir ++ '\n' :: rest)
    rw [if_neg empty, if_neg empty, List.append_assoc, List.cons_append, List.cons_append,
      List.nil_append, lines_append_cons]
    rw [List.nil_append] at gap
    rw [gap, below]
    simp [dropReturn]

theorem mergeLines_linesBefore (mainConfigText : Text) (rest : List Text) :
    mergeLines [] (linesBefore mainConfigText ++ rest) =
      logicalLines mainConfigText ++ mergeLines [] rest := by
  have ended : logicalLines (trimEnd mainConfigText) = logicalLines mainConfigText := by
    rw [← logicalLines_trim, trim_trimEnd, logicalLines_trim]
  unfold linesBefore
  by_cases empty : trimEnd mainConfigText = []
  · rw [if_pos empty, ← ended, empty]
    rfl
  · have trims : (((trimEnd mainConfigText).splitOn '\n').map dropReturn).map trim =
        ((trimEnd mainConfigText).splitOn '\n').map trim := by
      rw [List.map_map]
      exact List.map_congr_left fun line _ => trim_dropReturn line
    rw [if_neg empty, List.append_assoc, List.singleton_append,
      mergeLines_append_blank _ _ lineKind_nil, ← mergeLines_map_trim, trims,
      ← logicalLines_eq, ended]

/-- What is inserted is read as the texts one after the other. -/
theorem mergeLines_insertedLines (texts ls : List Text) (current : Text) :
    mergeLines current (ls ++ insertedLines texts) =
      mergeLines current ls ++ texts.flatMap logicalLines := by
  induction texts generalizing ls current with
  | nil => simp [insertedLines]
  | cons text texts inductionHypothesis =>
      rw [insertedLines, List.flatMap_cons, ← insertedLines, List.flatMap_cons]
      by_cases blank : trim text = []
      · have none := logicalLines_of_blank ((trim_eq_nil_iff text).mp blank)
        rw [if_pos blank, List.nil_append, inductionHypothesis, none, List.nil_append]
      · have rest := inductionHypothesis (lines text) []
        have gap := mergeLines_append_blank current ls lineKind_nil
          (lines text ++ insertedLines texts)
        rw [rest] at gap
        rw [if_neg blank, logicalLines, ← gap]
        simp

/-- The block ends with a comment, and what follows it starts with an empty line. -/
theorem mergeLines_block (texts : List Text) {rest : Text}
    (apart : rest = [] ∨ ∃ shown, rest = '\n' :: shown) :
    mergeLines [] (managedBegin :: insertedLines texts ++ managedEnd :: lines rest) =
      texts.flatMap logicalLines ++ logicalLines rest := by
  have comment : lineKind managedBegin = .comment ∧ lineKind managedEnd = .comment := by decide
  have inserted := mergeLines_insertedLines texts [] []
  rw [List.nil_append] at inserted
  rw [List.cons_append, mergeLines, comment.1]
  simp only []
  rw [mergeLines_append_comment _ _ comment.2]
  rcases apart with rfl | ⟨shown, rfl⟩
  · rw [lines_nil, List.append_nil, inserted]
    simp [mergeLines, flush, logicalLines]
  · have gap := lines_append_newline (List.not_mem_nil : '\n' ∉ []) shown
    rw [List.nil_append] at gap
    have empty : dropReturn [] = [] := rfl
    rw [logicalLines, gap, empty, mergeLines_append_blank _ _ lineKind_nil, inserted]
    simp [mergeLines, flush]

theorem infix_of_mem_visibleLines {text line : Text} (membership : line ∈ visibleLines text) :
    line <:+: text := by
  rw [visibleLines_eq_splitOn] at membership
  obtain ⟨piece, pieceMem, rfl⟩ := List.mem_map.mp (List.mem_filter.mp membership).1
  exact (trim_isInfix piece).trans (infix_of_mem_splitOn pieceMem)

theorem trim_ne_of_mem_linesBefore {marker mainConfigText line : Text}
    (nonempty : marker ≠ []) (absent : marker ∉ visibleLines mainConfigText)
    (membership : line ∈ linesBefore mainConfigText) : trim line ≠ marker := by
  rintro rfl
  unfold linesBefore at membership
  split at membership
  · simp at membership
  · rcases List.mem_append.mp membership with inText | gap
    · obtain ⟨piece, pieceMem, rfl⟩ := List.mem_map.mp inText
      rw [trim_dropReturn] at nonempty absent
      apply absent
      rw [← visibleLines_trimEnd, visibleLines_eq_splitOn]
      exact List.mem_filter.mpr ⟨List.mem_map_of_mem pieceMem, by simpa using nonempty⟩
    · simp [List.mem_singleton.mp gap] at nonempty

theorem trim_ne_of_mem_lines {marker text line : Text} (nonempty : marker ≠ [])
    (absent : marker ∉ visibleLines text) (membership : line ∈ lines text) :
    trim line ≠ marker := by
  rintro rfl
  exact absent (List.mem_filter.mpr ⟨List.mem_map_of_mem membership, by simpa using nonempty⟩)

theorem not_mem_previewLines {texts ls : List Text} (free : ∀ line ∈ ls, '\n' ∉ line)
    (inManagedBlock : Bool) : ∀ line ∈ previewLines texts inManagedBlock ls, '\n' ∉ line := by
  have inserted : ∀ line ∈ insertedLines texts, '\n' ∉ line := by
    intro line membership
    obtain ⟨text, -, shown⟩ := List.mem_flatMap.mp membership
    split at shown
    · simp at shown
    · rcases List.mem_cons.mp shown with rfl | listed
      · simp
      · exact not_mem_of_mem_lines listed
  fun_induction previewLines texts inManagedBlock ls <;>
    simp_all [or_imp, forall_and]

theorem logicalLines_closed {ls : List Text} (free : ∀ line ∈ ls, '\n' ∉ line) :
    logicalLines (join ['\n'] (if ls ≠ [] then ls ++ [[]] else ls)) = mergeLines [] ls := by
  by_cases empty : ls = []
  · simp [empty, join, logicalLines]
  · rw [if_pos empty, logicalLines_join, mergeLines_append_nil]
    simpa [or_imp, forall_and] using free

/-- The preview shows the managed texts between the user's. -/
theorem logicalLines_preview_surrounded (contents : Text → Text) {before rest rulesDir : Text}
    (absent : managedBegin ∉ visibleLines before) (absent' : managedBegin ∉ visibleLines rest)
    (apart : rest = [] ∨ ∃ shown, rest = '\n' :: shown) (oneLine : '\n' ∉ rulesDir) :
    logicalLines (renderEffectiveConfigPreview contents
        (textBeforeBlock before ++ managedBlock rulesDir ++ '\n' :: rest) rulesDir) =
      logicalLines before ++
        (previewTexts (readManagedPageTexts contents rulesDir)).flatMap logicalLines ++
          logicalLines rest := by
  have above : ∀ line ∈ linesBefore before, trim line ≠ managedBegin :=
    fun line => trim_ne_of_mem_linesBefore managedBegin_ne_nil absent
  have below : ∀ texts, previewLines texts false (lines rest) = lines rest := by
    intro texts
    have kept := previewLines_append
      (fun line => trim_ne_of_mem_lines managedBegin_ne_nil absent') texts []
    simpa [previewLines] using kept
  rw [renderEffectiveConfigPreview, logicalLines_closed (not_mem_previewLines
    (fun line => not_mem_of_mem_lines) false), lines_surrounded before rest oneLine,
    List.append_assoc, previewLines_append above, previewLines_blockLines, below,
    mergeLines_linesBefore, mergeLines_block _ apart, List.append_assoc]

/-- The preview of a main configuration that had no block. -/
theorem logicalLines_preview (contents : Text → Text) {mainConfigText rulesDir : Text}
    (absent : ¬ managedBegin <:+: mainConfigText) (oneLine : '\n' ∉ rulesDir) :
    logicalLines (renderEffectiveConfigPreview contents
        (ensureManagedBlock mainConfigText rulesDir) rulesDir) =
      logicalLines mainConfigText ++
        (previewTexts (readManagedPageTexts contents rulesDir)).flatMap logicalLines := by
  have none : findManagedBlock mainConfigText = none := by
    simp only [findManagedBlock, (splitAtFirst_eq_none_iff _).mpr absent]
  have noLines : managedBegin ∉ visibleLines [] := List.not_mem_nil
  have surrounded := logicalLines_preview_surrounded contents
    (mt infix_of_mem_visibleLines absent) noLines (.inl rfl) oneLine
  have closing : textAfterBlock [] = ['\n'] := rfl
  rw [ensureManagedBlock_of_none none, closing, surrounded]
  exact List.append_nil _

theorem trim_textBeforeBlock (text : Text) : trim (textBeforeBlock text) = trim text := by
  unfold textBeforeBlock
  by_cases empty : trimEnd text = []
  · rw [if_pos empty, ← trim_trimEnd text, empty]
  · rw [if_neg empty, trim_append_of_blank _ (by simp), trim_trimEnd]

theorem splitAtFirst_block {mainConfigText rulesDir : Text}
    (absent : ¬ managedBegin <:+: mainConfigText) :
    splitAtFirst (managedBlock rulesDir) (ensureManagedBlock mainConfigText rulesDir) =
      some (textBeforeBlock mainConfigText, ['\n']) := by
  have none : findManagedBlock mainConfigText = none := by
    simp only [findManagedBlock, (splitAtFirst_eq_none_iff _).mpr absent]
  have opened : managedBlock rulesDir = managedBegin ++
      (managedBlock rulesDir).drop managedBegin.length := by
    rw [managedBlock_eq, unlines_cons]
    simp
  have first : splitAtFirst managedBegin (ensureManagedBlock mainConfigText rulesDir) =
      some (textBeforeBlock mainConfigText,
        (managedBlock rulesDir).drop managedBegin.length ++ ['\n']) := by
    simp only [ensureManagedBlock, none]
    rw [List.append_assoc, splitAtFirst_textBeforeBlock managedBegin_ne_nil (by decide) absent,
      opened, List.append_assoc, splitAtFirst_self_append managedBegin_ne_nil]
    simp
  have longer := splitAtFirst_longer managedBegin_ne_nil first
  rwa [← opened] at longer

theorem loadedLines_ensureManagedBlock (contents : Text → Text) {mainConfigText rulesDir : Text}
    (absent : ¬ managedBegin <:+: mainConfigText) (oneLine : '\n' ∉ rulesDir) :
    loadedLines contents (ensureManagedBlock mainConfigText rulesDir) rulesDir =
      logicalLines mainConfigText ++
        (includedTexts (readManagedPageTexts contents rulesDir)).flatMap logicalLines := by
  have before : logicalLines (textBeforeBlock mainConfigText) = logicalLines mainConfigText := by
    rw [← logicalLines_trim (textBeforeBlock _), trim_textBeforeBlock, logicalLines_trim]
  have after : logicalLines ['\n'] = [] := by decide
  simp only [loadedLines, splitAtFirst_block absent]
  rw [expandLine_managedBlock contents oneLine, before, after, List.append_nil]

/-- The preview shows what the includes load exactly when the sets may be moved
behind the routing and the rules. -/
theorem preview_eq_loadedLines_iff (contents : Text → Text) {mainConfigText rulesDir : Text}
    (free : IsMarkerFree mainConfigText) (oneLine : '\n' ∉ rulesDir) :
    let pages := readManagedPageTexts contents rulesDir
    logicalLines (renderEffectiveConfigPreview contents
        (ensureManagedBlock mainConfigText rulesDir) rulesDir) =
      loadedLines contents (ensureManagedBlock mainConfigText rulesDir) rulesDir ↔
    logicalLines pages.sets ++ (logicalLines pages.routing ++ logicalLines pages.rules) =
      logicalLines pages.routing ++ logicalLines pages.rules ++ logicalLines pages.sets := by
  intro pages
  rw [logicalLines_preview contents free.no_begin oneLine,
    loadedLines_ensureManagedBlock contents free.no_begin oneLine]
  simp only [previewTexts, includedTexts, List.flatMap_cons, List.append_cancel_left_eq]
  simp only [← List.append_assoc, List.append_cancel_right_eq]
  exact eq_comm

/-- The settings, an upstream server and a set that no rule uses. -/
def contentsWithoutRules (path : Text) : Text :=
  if path = "/etc/smartdns/conf.d/10-basic.conf" then "server-name home\nbind [::]:53"
  else if path = "/etc/smartdns/conf.d/20-upstreams.conf" then "server-tls 1.1.1.1"
  else if path = "/etc/smartdns/conf.d/60-sets.conf" then "domain-set -name ads -file ads.txt"
  else []

/-- Without rules the sets may stand anywhere. -/
theorem preview_eq_loadedLines_iff_example :
    let mainConfigText := ensureManagedBlock "server 1.1.1.1" "/etc/smartdns/rules"
    logicalLines (renderEffectiveConfigPreview contentsWithoutRules mainConfigText
        "/etc/smartdns/rules") =
      loadedLines contentsWithoutRules mainConfigText "/etc/smartdns/rules" := by
  have free : IsMarkerFree "server 1.1.1.1" := by
    constructor <;> rw [← splitAtFirst_eq_none_iff] <;> decide
  apply (preview_eq_loadedLines_iff contentsWithoutRules free (by decide)).mpr
  decide

/-- A set that a rule uses is loaded before the rule and shown after it. -/
theorem not_preview_eq_loadedLines :
    ¬ ∀ (contents : Text → Text) (mainConfigText rulesDir : Text),
      IsMarkerFree mainConfigText → '\n' ∉ rulesDir →
      logicalLines (renderEffectiveConfigPreview contents
          (ensureManagedBlock mainConfigText rulesDir) rulesDir) =
        loadedLines contents (ensureManagedBlock mainConfigText rulesDir) rulesDir := by
  intro all
  let contents : Text → Text := fun path =>
    if path = "/etc/smartdns/conf.d/60-sets.conf" then "domain-set -name ads -file ads.txt"
    else if path = "/etc/smartdns/conf.d/50-rules.conf" then "address /domain-set:ads/#"
    else []
  have free : IsMarkerFree [] := by
    constructor <;> rw [← splitAtFirst_eq_none_iff] <;> decide
  have oneLine : '\n' ∉ ("/etc/smartdns/rules" : Text) := by decide
  have same := all contents [] "/etc/smartdns/rules" free oneLine
  rw [logicalLines_preview contents free.no_begin oneLine,
    loadedLines_ensureManagedBlock contents free.no_begin oneLine] at same
  revert same
  decide

end SmartDnsPlusUi
