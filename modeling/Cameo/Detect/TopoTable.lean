import Mathlib.Data.List.FinRange
import Mathlib.Data.List.Forall2
import Cameo.Authority
import Cameo.Bytes
import Cameo.Library.Spaced
import Cameo.Placement.Topology

/-!
# The link table of `rocm-smi`

`parse_rocm_smi_topo` remembers the first header it meets and takes from every later row what its
cells say about the cards of the header.  Tables of numbers look alike but say nothing, so the links
are those of the link table wherever it stands, and from them every pair of cards is known.
-/

namespace Cameo.Detect

open Placement (Link LinkKind Topology)

/-! ## Parsing -/

/-- A character of `str::to_uppercase`, as far as the names of links go: of the letters outside
ASCII only two have a letter of theirs as their upper case. -/
def toUppercase (c : Char) : Char :=
  if 'a' ≤ c ∧ c ≤ 'z' then Char.ofNat (c.toNat - 32)
  else if c = 'ı' then 'I'
  else if c = 'ſ' then 'S'
  else c

/-- `gpu_index`. -/
def gpuIndex (tok : List Char) : Option ℕ :=
  if "GPU".toList.isPrefixOf tok then parseUsize (tok.drop 3) else none

/-- `link_kind`. -/
def linkKind (cell : List Char) : Option LinkKind :=
  let word := cell.map toUppercase
  if word = "XGMI".toList then some .xgmi
  else if word ∈ ["PCIE", "PIX", "PXB"].map String.toList then some .pcieP2P
  else if word ∈ ["PHB", "NODE", "SYS"].map String.toList then some .hostOnly
  else none

/-- The variables of `parse_rocm_smi_topo`. -/
structure TopoParse where
  header : List ℕ
  links : List Link

/-- The links of a row: those to later cards, by the cells that name a kind. -/
def rowLinks (header : List ℕ) (i : ℕ) (cells : List (List Char)) : List Link :=
  (cells.zip header).filterMap fun (cell, j) ↦
    if j ≤ i then none else (linkKind cell).map fun kind ↦ ⟨i, j, kind⟩

/-- One line of `parse_rocm_smi_topo`, split into tokens. -/
def TopoParse.row (st : TopoParse) (toks : List (List Char)) : TopoParse :=
  match toks with
  | [] => st
  | first :: cells =>
    if st.header = [] ∧ 1 < toks.length ∧ toks.all fun tok ↦ (gpuIndex tok).isSome then
      { st with header := toks.filterMap gpuIndex }
    else
      match gpuIndex first with
      | none => st
      | some i =>
        if st.header = [] then st
        else { st with links := st.links ++ rowLinks st.header i cells }

/-- `parse_rocm_smi_topo`. -/
def parseRocmSmiTopo (output : String) : List Link :=
  ((lines output).foldl (fun (st : TopoParse) line ↦ st.row (splitWhitespace line)) ⟨[], []⟩).links

/-! ## The tables of `rocm-smi` -/

def gpuLabel (i : ℕ) : List Char := "GPU".toList ++ (toString i).toList

def headerRow (n : ℕ) : List (List Char) := (List.range n).map gpuLabel

def spellings : LinkKind → List String
  | .xgmi => ["XGMI"]
  | .pcieP2P => ["PCIE", "PIX", "PXB"]
  | .hostOnly => ["PHB", "NODE", "SYS"]

/-- A number: digits, and maybe a point. -/
def IsPlainNumber (cell : List Char) : Prop :=
  cell ≠ [] ∧ ∀ c ∈ cell, c.isDigit = true ∨ c = '.'

instance (cell : List Char) : Decidable (IsPlainNumber cell) :=
  -- By the characters of the cell; there are finitely many characters, and that is a decision too.
  haveI : Decidable (∀ c ∈ cell, c.isDigit = true ∨ c = '.') := List.decidableBAll _ _
  inferInstanceAs (Decidable (_ ∧ _))

/-- The cell of a link table at two cards. -/
def LinkCell {n : ℕ} (matrix : Fin n → Fin n → LinkKind) (i j : Fin n) (cell : List Char) : Prop :=
  if i = j then cell = "0".toList else ∃ word ∈ spellings (matrix i j), cell = word.toList

instance {n : ℕ} (matrix : Fin n → Fin n → LinkKind) (i j : Fin n) (cell : List Char) :
    Decidable (LinkCell matrix i j cell) :=
  inferInstanceAs (Decidable (if i = j then _ else _))

/-- The rows of a link table: the header, and one row for each card in any order. -/
def LinkTable {n : ℕ} (matrix : Fin n → Fin n → LinkKind) (rows : List (List (List Char))) : Prop :=
  ∃ (order : List (Fin n)) (cell : Fin n → Fin n → List Char),
    order.Perm (List.finRange n) ∧ (∀ i j, LinkCell matrix i j (cell i j)) ∧
      rows = headerRow n :: order.map fun (i : Fin n) ↦ gpuLabel i :: List.ofFn (cell i)

/-- A row of a table of numbers with as many cards, its header included, or a line that does not
begin with a card. -/
def LooksAlike (n : ℕ) (row : List (List Char)) : Prop :=
  row = headerRow n ∨
    (∃ i cells, row = gpuLabel i :: cells ∧ cells.length = n ∧ ∀ cell ∈ cells, IsPlainNumber cell) ∨
    ∀ first ∈ row.head?, ¬ "GPU".toList <+: first

/-- A text with the given rows, whatever the blanks between their words. -/
def Rendered (rows : List (List (List Char))) (text : String) : Prop :=
  ∃ ls, text.toList = ['\n'].intercalate ls ∧
    List.Forall₂ (fun row line ↦ '\n' ∉ line ∧ Library.Spaced isWhitespace row line) rows ls

/-- The output of `rocm-smi --showtopo`: a link table among tables of numbers. -/
def IsTopoOutput {n : ℕ} (matrix : Fin n → Fin n → LinkKind) (text : String) : Prop :=
  ∃ before table after, (∀ row ∈ before, LooksAlike n row) ∧ LinkTable matrix table ∧
    (∀ row ∈ after, LooksAlike n row) ∧ Rendered (before ++ table ++ after) text

/-! ## Rows of a text -/

theorem splitWhitespace_eq_wordsOf (text : List Char) :
    splitWhitespace text = Library.wordsOf isWhitespace text := rfl

/-- A carriage return at the end of a line does not count. -/
theorem splitWhitespace_stripReturn (line : List Char) :
    splitWhitespace (stripReturn line) = splitWhitespace line := by
  unfold stripReturn
  split
  · rename_i hlast
    obtain ⟨front, rfl⟩ := List.getLast?_eq_some_iff.mp hlast
    rw [List.dropLast_concat, splitWhitespace_eq_wordsOf, splitWhitespace_eq_wordsOf,
      Library.wordsOf_append_blank (by decide)]
  · rfl

/-- The lines of a text, as far as their words go. -/
theorem words_of_lines {text : String} {ls : List (List Char)}
    (htext : text.toList = ['\n'].intercalate ls) (hls : ∀ line ∈ ls, '\n' ∉ line) :
    ((lines text).map splitWhitespace).filter (· ≠ []) =
      (ls.map splitWhitespace).filter (· ≠ []) := by
  rcases List.eq_nil_or_concat ls with rfl | ⟨front, last, rfl⟩
  · unfold lines
    rw [htext]
    rfl
  · rw [List.concat_eq_append] at htext hls ⊢
    have hsplit : text.toList.splitOn '\n' = front ++ [last] := by
      rw [htext, List.splitOn_intercalate '\n' hls (List.append_ne_nil_of_right_ne_nil _ nofun)]
    have hfront : (front.map stripReturn).map splitWhitespace = front.map splitWhitespace := by
      rw [List.map_map]
      exact List.map_congr_left fun line _ ↦ splitWhitespace_stripReturn line
    unfold lines
    dsimp only
    rw [hsplit, List.dropLast_concat, List.getLast?_concat, List.map_append, hfront,
      List.map_append, List.filter_append, List.filter_append]
    cases last with
    | nil => rfl
    | cons c rest => rfl

/-- The rows of a rendered text are those it was rendered from, but for empty ones. -/
theorem rows_of_rendered {rows : List (List (List Char))} {text : String} (h : Rendered rows text) :
    ((lines text).map splitWhitespace).filter (· ≠ []) = rows.filter (· ≠ []) := by
  obtain ⟨ls, htext, hrows⟩ := h
  have hwords : ls.map splitWhitespace = rows ∧ ∀ line ∈ ls, '\n' ∉ line := by
    clear htext
    induction hrows with
    | nil => exact ⟨rfl, nofun⟩
    | cons hline _ ih =>
      exact ⟨congrArg₂ List.cons (Library.wordsOf_of_spaced hline.2) ih.1,
        List.forall_mem_cons.mpr ⟨hline.1, ih.2⟩⟩
  rw [words_of_lines htext hwords.2, hwords.1]

/-- A text is rendered from the words of its lines. -/
theorem rendered_of_lines {text : String} {ls : List (List Char)}
    (htext : text.toList = ['\n'].intercalate ls) (hls : ∀ line ∈ ls, '\n' ∉ line) :
    Rendered (ls.map splitWhitespace) text := by
  refine ⟨ls, htext, ?_⟩
  rw [List.forall₂_map_left_iff, List.forall₂_same]
  exact fun line hline ↦ ⟨hls line hline, Library.spaced_iff.mpr rfl⟩

/-- A rendered text is parsed by the rows it was rendered from. -/
theorem parse_of_rendered {rows : List (List (List Char))} {text : String}
    (h : Rendered rows text) :
    parseRocmSmiTopo text = (rows.foldl TopoParse.row ⟨[], []⟩).links := by
  have hskip : ∀ (rows : List (List (List Char))) (st : TopoParse),
      (rows.filter (· ≠ [])).foldl TopoParse.row st = rows.foldl TopoParse.row st := by
    intro rows
    induction rows with
    | nil => exact fun _ ↦ rfl
    | cons row rest ih =>
      intro st
      cases row with
      | nil => exact ih st
      | cons first cells => exact ih (st.row (first :: cells))
  rw [← hskip rows, ← rows_of_rendered h, hskip, List.foldl_map]
  rfl

/-! ## Tokens -/

theorem gpuIndex_gpuLabel {i : ℕ} (h : i < UInt64.size) : gpuIndex (gpuLabel i) = some i := by
  unfold gpuIndex gpuLabel
  rw [if_pos (List.isPrefixOf_iff_prefix.mpr (List.prefix_append _ _))]
  exact parseUsize_decimal h

/-- A text that does not begin as a label is none. -/
theorem gpuIndex_eq_none {tok : List Char} (h : ¬ "GPU".toList <+: tok) : gpuIndex tok = none :=
  if_neg (mt List.isPrefixOf_iff_prefix.mp h)

theorem linkKind_of_mem_spellings {kind : LinkKind} {word : String} (h : word ∈ spellings kind) :
    linkKind word.toList = some kind := by
  have hall : ∀ kind, ∀ word ∈ spellings kind, linkKind word.toList = some kind := by
    intro kind
    cases kind <;> decide
  exact hall kind word h

/-- A cell that begins as no name of a link does is not one. -/
theorem linkKind_eq_none {cell : List Char}
    (h : ∀ c ∈ cell.head?, toUppercase c ∉ ['X', 'P', 'N', 'S']) : linkKind cell = none := by
  have hhead : ∀ word, word.head? ∈ ['X', 'P', 'N', 'S'].map some →
      cell.map toUppercase ≠ word := by
    rintro _ hword rfl
    rw [List.head?_map] at hword
    obtain ⟨c, hc, heq⟩ := List.mem_map.mp hword
    obtain ⟨d, hd, rfl⟩ := Option.map_eq_some_iff.mp heq.symm
    exact h d hd hc
  have hnone : ∀ words : List String,
      (∀ word ∈ words, word.toList.head? ∈ ['X', 'P', 'N', 'S'].map some) →
        cell.map toUppercase ∉ words.map String.toList := by
    intro words hwords hmem
    obtain ⟨word, hword, heq⟩ := List.mem_map.mp hmem
    exact hhead word.toList (hwords word hword) heq.symm
  unfold linkKind
  dsimp only
  rw [if_neg (hhead _ (by decide)), if_neg (hnone _ (by decide)), if_neg (hnone _ (by decide))]

theorem linkKind_of_plainNumber {cell : List Char} (h : IsPlainNumber cell) :
    linkKind cell = none := by
  have hsmall : ∀ n < 58, toUppercase (Char.ofNat n) ∉ ['X', 'P', 'N', 'S'] := by decide
  refine linkKind_eq_none fun c hc ↦ ?_
  have hlt : c.toNat < 58 := by
    rcases h.2 c (List.mem_of_mem_head? hc) with hdigit | rfl
    · exact Nat.lt_succ_of_le (Char.isDigit_iff_toNat.mp hdigit).2
    · decide
  rw [← Char.ofNat_toNat c]
  exact hsmall c.toNat hlt

theorem linkKind_gpuLabel (i : ℕ) : linkKind (gpuLabel i) = none :=
  linkKind_eq_none fun c hc ↦ by
    obtain rfl := Option.some.inj hc
    decide

/-! ## Rows -/

variable {n : ℕ} {st : TopoParse} {matrix : Fin n → Fin n → LinkKind}

theorem filterMap_gpuIndex_headerRow (h : n ≤ UInt64.size) :
    (headerRow n).filterMap gpuIndex = List.range n := by
  rw [headerRow, List.filterMap_map]
  refine (List.filterMap_congr fun i hi ↦ ?_).trans List.filterMap_some
  exact gpuIndex_gpuLabel ((List.mem_range.mp hi).trans_le h)

theorem headerRow_eq_cons (h : 2 ≤ n) :
    headerRow n = gpuLabel 0 :: (List.range' 1 (n - 1)).map gpuLabel := by
  obtain ⟨m, rfl⟩ := Nat.exists_eq_add_of_le h
  rw [headerRow, List.range_eq_range', Nat.add_comm 2 m]
  rfl

theorem row_cons (st : TopoParse) (first : List Char) (cells : List (List Char)) :
    st.row (first :: cells) =
      if st.header = [] ∧ 1 < (first :: cells).length ∧
          (first :: cells).all fun tok ↦ (gpuIndex tok).isSome then
        { st with header := (first :: cells).filterMap gpuIndex }
      else
        match gpuIndex first with
        | none => st
        | some i =>
          if st.header = [] then st
          else { st with links := st.links ++ rowLinks st.header i cells } := rfl

/-- The first header is remembered. -/
theorem row_headerRow_first (h : 2 ≤ n) (hsize : n ≤ UInt64.size) (hst : st.header = []) :
    st.row (headerRow n) = { st with header := List.range n } := by
  have hall : ((headerRow n).all fun tok ↦ (gpuIndex tok).isSome) = true := by
    rw [headerRow, List.all_map, List.all_eq_true]
    intro i hi
    rw [Function.comp_apply, gpuIndex_gpuLabel ((List.mem_range.mp hi).trans_le hsize)]
    rfl
  have hlength : 1 < (headerRow n).length := by
    rw [headerRow, List.length_map, List.length_range]
    exact h
  have hheader := filterMap_gpuIndex_headerRow hsize
  rw [headerRow_eq_cons h] at hall hlength hheader ⊢
  rw [row_cons, if_pos ⟨hst, hlength, hall⟩, hheader]

/-- Cells that name no link add none. -/
theorem rowLinks_eq_nil {header : List ℕ} {i : ℕ} {cells : List (List Char)}
    (h : ∀ cell ∈ cells, linkKind cell = none) : rowLinks header i cells = [] := by
  refine List.filterMap_eq_nil_iff.mpr ?_
  rintro ⟨cell, j⟩ hmem
  dsimp only
  rw [h cell (List.of_mem_zip hmem).1]
  exact ite_self none

/-- A row of a card, after a header. -/
theorem row_of_label {i : ℕ} (hi : i < UInt64.size) (cells : List (List Char))
    (hst : st.header ≠ []) :
    st.row (gpuLabel i :: cells) = { st with links := st.links ++ rowLinks st.header i cells } := by
  rw [row_cons, if_neg fun h ↦ hst h.1, gpuIndex_gpuLabel hi]
  exact if_neg hst

/-- A row whose cells are no links, and that is no header, leaves everything as it is. -/
theorem row_of_no_links {first : List Char} {cells : List (List Char)}
    (hheader : st.header = [] → ¬ (first :: cells).all fun tok ↦ (gpuIndex tok).isSome)
    (hlinks : gpuIndex first ≠ none → ∀ cell ∈ cells, linkKind cell = none) :
    st.row (first :: cells) = st := by
  rw [row_cons, if_neg fun h ↦ hheader h.1 h.2.2]
  cases hfirst : gpuIndex first with
  | none => rfl
  | some i =>
    dsimp only
    rw [rowLinks_eq_nil (hlinks (by rw [hfirst]; exact nofun)), List.append_nil]
    exact ite_self st

theorem gpuIndex_of_plainNumber {cell : List Char} (h : IsPlainNumber cell) :
    gpuIndex cell = none := by
  refine gpuIndex_eq_none ?_
  rintro ⟨rest, rfl⟩
  rcases h.2 'G' List.mem_cons_self with hdigit | hpoint
  · exact absurd hdigit (by decide)
  · exact absurd hpoint (by decide)

/-- A row that looks alike may bring the header, and brings nothing else. -/
theorem row_of_looksAlike (st : TopoParse) {row : List (List Char)} (h : 2 ≤ n)
    (hsize : n ≤ UInt64.size) (hrow : LooksAlike n row) :
    st.row row = st ∨ st.header = [] ∧ st.row row = { st with header := List.range n } := by
  rcases hrow with rfl | ⟨i, cells, rfl, hlength, hcells⟩ | hfirst
  · by_cases hst : st.header = []
    · exact .inr ⟨hst, row_headerRow_first h hsize hst⟩
    · left
      rw [headerRow_eq_cons h]
      refine row_of_no_links (fun hnil ↦ absurd hnil hst) fun _ cell hcell ↦ ?_
      obtain ⟨j, -, rfl⟩ := List.mem_map.mp hcell
      exact linkKind_gpuLabel j
  · left
    refine row_of_no_links (fun _ hall ↦ ?_) fun _ cell hcell ↦
      linkKind_of_plainNumber (hcells cell hcell)
    obtain ⟨number, hnumber⟩ : ∃ number, number ∈ cells :=
      List.exists_mem_of_length_pos (by omega)
    have hsome := List.all_eq_true.mp hall number (List.mem_cons_of_mem _ hnumber)
    rw [gpuIndex_of_plainNumber (hcells number hnumber)] at hsome
    exact absurd hsome Bool.false_ne_true
  · left
    cases row with
    | nil => rfl
    | cons first cells =>
      have hnone := gpuIndex_eq_none (hfirst first rfl)
      refine row_of_no_links (fun _ hall ↦ ?_) fun hlabel ↦ absurd hnone hlabel
      have hsome := List.all_eq_true.mp hall first List.mem_cons_self
      rw [hnone] at hsome
      exact absurd hsome Bool.false_ne_true

/-- Rows that look alike may bring the header, and bring nothing else. -/
theorem foldl_looksAlike (st : TopoParse) {rows : List (List (List Char))} (h : 2 ≤ n)
    (hsize : n ≤ UInt64.size) (hrows : ∀ row ∈ rows, LooksAlike n row) :
    rows.foldl TopoParse.row st = st ∨
      st.header = [] ∧ rows.foldl TopoParse.row st = { st with header := List.range n } := by
  induction rows generalizing st with
  | nil => exact .inl rfl
  | cons row rest ih =>
    rw [List.foldl_cons]
    have hrest : ∀ row ∈ rest, LooksAlike n row := fun r hr ↦ hrows r (List.mem_cons_of_mem row hr)
    rcases row_of_looksAlike st h hsize (hrows row List.mem_cons_self) with
      heq | ⟨hst, heq⟩
    · rw [heq]
      exact ih st hrest
    · rw [heq]
      rcases ih { st with header := List.range n } hrest with hsame | ⟨hempty, -⟩
      · exact .inr ⟨hst, hsame⟩
      · exact absurd (List.range_eq_nil.mp hempty) (by omega)

/-! ## The links of the table -/

def tableLinks (order : List (Fin n)) (cell : Fin n → Fin n → List Char) : List Link :=
  order.flatMap fun (i : Fin n) ↦ rowLinks (List.range n) i (List.ofFn (cell i))

theorem foldl_table {order : List (Fin n)} {cell : Fin n → Fin n → List Char}
    (hsize : n ≤ UInt64.size) (hn : n ≠ 0) (links : List Link) :
    (order.map fun (i : Fin n) ↦ gpuLabel i :: List.ofFn (cell i)).foldl TopoParse.row
        ⟨List.range n, links⟩ =
      ⟨List.range n, links ++ tableLinks order cell⟩ := by
  induction order generalizing links with
  | nil =>
    rw [tableLinks, List.flatMap_nil, List.append_nil]
    rfl
  | cons i rest ih =>
    have hrow : TopoParse.row ⟨List.range n, links⟩ (gpuLabel i :: List.ofFn (cell i)) =
        ⟨List.range n, links ++ rowLinks (List.range n) i (List.ofFn (cell i))⟩ :=
      row_of_label (i.isLt.trans_le hsize) _ (mt List.range_eq_nil.mp hn)
    rw [List.map_cons, List.foldl_cons, hrow, ih, tableLinks, tableLinks, List.flatMap_cons,
      ← List.append_assoc]

/-- A row gives the links of its card to later ones. -/
theorem mem_rowLinks_iff {cell : Fin n → Fin n → List Char}
    (hcell : ∀ i j, LinkCell matrix i j (cell i j)) {i : Fin n} {link : Link} :
    link ∈ rowLinks (List.range n) i (List.ofFn (cell i)) ↔
      ∃ j, i < j ∧ link = ⟨i, j, matrix i j⟩ := by
  have hzip : ∀ {text j}, (text, j) ∈ (List.ofFn (cell i)).zip (List.range n) ↔
      ∃ k : Fin n, text = cell i k ∧ j = k := by
    intro text j
    rw [List.ofFn_eq_map, ← List.map_coe_finRange_eq_range, List.zip_map', List.mem_map]
    constructor
    · rintro ⟨k, -, heq⟩
      cases heq
      exact ⟨k, rfl, rfl⟩
    · rintro ⟨k, rfl, rfl⟩
      exact ⟨k, List.mem_finRange k, rfl⟩
  have hkind : ∀ {j}, i ≠ j → linkKind (cell i j) = some (matrix i j) := by
    intro j hne
    have hspelled := hcell i j
    rw [LinkCell, if_neg hne] at hspelled
    obtain ⟨word, hword, heq⟩ := hspelled
    rw [heq, linkKind_of_mem_spellings hword]
  rw [rowLinks, List.mem_filterMap]
  constructor
  · rintro ⟨⟨text, j⟩, hmem, hlink⟩
    obtain ⟨k, rfl, rfl⟩ := hzip.mp hmem
    dsimp only at hlink
    split at hlink
    · exact absurd hlink nofun
    · rename_i hlt
      have hlt' : i < k := not_le.mp hlt
      rw [hkind hlt'.ne, Option.map_some, Option.some_inj] at hlink
      exact ⟨k, hlt', hlink.symm⟩
  · rintro ⟨j, hlt, rfl⟩
    refine ⟨(cell i j, j), hzip.mpr ⟨j, rfl, rfl⟩, ?_⟩
    dsimp only
    rw [if_neg (not_le.mpr (Fin.lt_def.mp hlt)), hkind hlt.ne]
    rfl

theorem mem_tableLinks_iff {order : List (Fin n)} {cell : Fin n → Fin n → List Char}
    (horder : order.Perm (List.finRange n)) (hcell : ∀ i j, LinkCell matrix i j (cell i j))
    {link : Link} :
    link ∈ tableLinks order cell ↔ ∃ i j : Fin n, i < j ∧ link = ⟨i, j, matrix i j⟩ := by
  rw [tableLinks, List.mem_flatMap]
  constructor
  · rintro ⟨i, -, hlink⟩
    exact ⟨i, (mem_rowLinks_iff hcell).mp hlink⟩
  · rintro ⟨i, hlink⟩
    exact ⟨i, horder.mem_iff.mpr (List.mem_finRange i), (mem_rowLinks_iff hcell).mpr hlink⟩

/-- The links parsed are those of the link table. -/
theorem mem_parse_iff (h : 2 ≤ n) (hsize : n ≤ UInt64.size) {text : String}
    (htext : IsTopoOutput matrix text) {link : Link} :
    link ∈ parseRocmSmiTopo text ↔ ∃ i j : Fin n, i < j ∧ link = ⟨i, j, matrix i j⟩ := by
  obtain ⟨before, table, after, hbefore, ⟨order, cell, horder, hcell, rfl⟩, hafter, hrendered⟩ :=
    htext
  have hn : n ≠ 0 := by omega
  -- Before the table nothing is found; the header is known from its header row on.
  have hheader : (headerRow n :: order.map fun (i : Fin n) ↦ gpuLabel i :: List.ofFn (cell i)).foldl
      TopoParse.row (before.foldl TopoParse.row ⟨[], []⟩) =
        ⟨List.range n, tableLinks order cell⟩ := by
    have hfirst : (before.foldl TopoParse.row ⟨[], []⟩).row (headerRow n) = ⟨List.range n, []⟩ := by
      rcases foldl_looksAlike ⟨[], []⟩ h hsize hbefore with heq | ⟨-, heq⟩
      · rw [heq]
        exact row_headerRow_first h hsize rfl
      · rw [heq]
        rcases row_of_looksAlike ⟨List.range n, []⟩ h hsize (.inl rfl) with hsame | ⟨-, hsame⟩
        · exact hsame
        · exact hsame
    rw [List.foldl_cons, hfirst, foldl_table hsize hn, List.nil_append]
  rw [← mem_tableLinks_iff horder hcell, parse_of_rendered hrendered, List.foldl_append,
    List.foldl_append, hheader]
  rcases foldl_looksAlike ⟨List.range n, tableLinks order cell⟩ h hsize hafter with heq | ⟨-, heq⟩
  · rw [heq]
  · rw [heq]

end Cameo.Detect
