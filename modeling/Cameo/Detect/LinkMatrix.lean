import Cameo.Detect.TopoTable

/-!
# The links between cards

What a topology says of its cards: each pair is linked as the matrix of `rocm-smi` has it, and the
bottleneck is the worst link of any pair, where a pair that no link joins goes through the host.
-/

namespace Cameo.Detect

open Placement (Link LinkKind Topology)

/-! ## Pairs of cards -/

/-- The kind of the first link that joins two cards; host-only if none does. -/
def recordedKind (links : List Link) (a b : ℕ) : LinkKind :=
  ((links.find? fun link ↦
    (link.a = a && link.b = b) || (link.a = b && link.b = a)).map Link.kind).getD .hostOnly

/-- The worst kind of any pair of different cards. -/
structure IsWorst {n : ℕ} (kind : Fin n → Fin n → LinkKind) (worst : LinkKind) : Prop where
  le : ∀ {a b}, a ≠ b → worst.bandwidthRank ≤ (kind a b).bandwidthRank
  attained : ∃ a b, a ≠ b ∧ kind a b = worst

theorem linkBetween_of_ne (topo : Topology) {a b : ℕ} (h : a ≠ b) :
    topo.linkBetween a b = some (recordedKind topo.links a b) := if_neg h

theorem recordedKind_comm (links : List Link) (a b : ℕ) :
    recordedKind links a b = recordedKind links b a := by
  unfold recordedKind
  congr 3
  funext link
  exact Bool.or_comm _ _

/-- A pair that no link joins goes through the host. -/
theorem recordedKind_of_missing {links : List Link} {a b : ℕ}
    (h : ∀ link ∈ links, ¬ ((link.a = a ∧ link.b = b) ∨ (link.a = b ∧ link.b = a))) :
    recordedKind links a b = .hostOnly := by
  unfold recordedKind
  rw [List.find?_eq_none.mpr]
  · rfl
  · intro link hlink hjoins
    exact h link hlink (by simpa using hjoins)

/-- A pair whose links are all of one kind is of that kind. -/
theorem recordedKind_eq {links : List Link} {a b : ℕ} {kind : LinkKind}
    (hmem : ∃ link ∈ links, (link.a = a ∧ link.b = b) ∨ (link.a = b ∧ link.b = a))
    (hkind : ∀ link ∈ links, (link.a = a ∧ link.b = b) ∨ (link.a = b ∧ link.b = a) →
      link.kind = kind) :
    recordedKind links a b = kind := by
  unfold recordedKind
  cases hfind : links.find? fun link ↦
      (link.a = a && link.b = b) || (link.a = b && link.b = a) with
  | none =>
    obtain ⟨link, hlink, hjoins⟩ := hmem
    exact absurd (by simpa using hjoins) (List.find?_eq_none.mp hfind link hlink)
  | some link =>
    have hjoins := List.find?_some hfind
    exact hkind link (List.mem_of_find?_eq_some hfind) (by simpa using hjoins)

/-! ## The bottleneck -/

/-- The worse of two links, the first if they are equal. -/
def worse (worst : LinkKind) (link : Option LinkKind) : LinkKind :=
  match link with
  | some kind => if kind.bandwidthRank < worst.bandwidthRank then kind else worst
  | none => worst

theorem worse_cases (worst kind : LinkKind) :
    worse worst (some kind) = kind ∧ kind.bandwidthRank < worst.bandwidthRank ∨
      worse worst (some kind) = worst ∧ worst.bandwidthRank ≤ kind.bandwidthRank := by
  unfold worse
  dsimp only
  split
  · exact .inl ⟨rfl, ‹_›⟩
  · exact .inr ⟨rfl, not_lt.mp ‹_›⟩

/-- A pass over links keeps the worst. -/
theorem foldl_worse (kinds : List LinkKind) (start : LinkKind) :
    let worst := (kinds.map some).foldl worse start
    worst.bandwidthRank ≤ start.bandwidthRank ∧
      (∀ kind ∈ kinds, worst.bandwidthRank ≤ kind.bandwidthRank) ∧
      (worst = start ∨ worst ∈ kinds) := by
  induction kinds generalizing start with
  | nil => exact ⟨le_rfl, nofun, .inl rfl⟩
  | cons kind rest ih =>
    obtain ⟨hstart, hrest, hmem⟩ := ih (worse start (some kind))
    rcases worse_cases start kind with ⟨heq, hlt⟩ | ⟨heq, hle⟩
    · rw [heq] at hstart hrest hmem
      dsimp only
      rw [List.map_cons, List.foldl_cons, heq]
      refine ⟨hstart.trans hlt.le, List.forall_mem_cons.mpr ⟨hstart, hrest⟩, .inr ?_⟩
      rcases hmem with hsame | hmem
      · rw [hsame]
        exact List.mem_cons_self
      · exact List.mem_cons_of_mem _ hmem
    · rw [heq] at hstart hrest hmem
      dsimp only
      rw [List.map_cons, List.foldl_cons, heq]
      exact ⟨hstart, List.forall_mem_cons.mpr ⟨hstart.trans hle, hrest⟩,
        hmem.imp_right (List.mem_cons_of_mem _)⟩

/-- The kinds of all pairs of cards, in order. -/
def pairKinds (links : List Link) (n : ℕ) : List LinkKind :=
  (List.range n).flatMap fun a ↦
    (List.range' (a + 1) (n - (a + 1))).map fun b ↦ recordedKind links a b

theorem mem_pairKinds_iff {links : List Link} {n : ℕ} {kind : LinkKind} :
    kind ∈ pairKinds links n ↔ ∃ a b, a < b ∧ b < n ∧ recordedKind links a b = kind := by
  rw [pairKinds, List.mem_flatMap]
  constructor
  · rintro ⟨a, ha, hmem⟩
    obtain ⟨b, hb, rfl⟩ := List.mem_map.mp hmem
    obtain ⟨hle, hlt⟩ := List.mem_range'_1.mp hb
    have ha := List.mem_range.mp ha
    exact ⟨a, b, hle, by omega, rfl⟩
  · rintro ⟨a, b, hlt, hb, rfl⟩
    exact ⟨a, List.mem_range.mpr (hlt.trans hb), List.mem_map.mpr
      ⟨b, List.mem_range'_1.mpr ⟨hlt, by omega⟩, rfl⟩⟩

theorem bottleneckLink_eq (topo : Topology) (h : 2 ≤ topo.gpus.length) :
    topo.bottleneckLink =
      some (((pairKinds topo.links topo.gpus.length).map some).foldl worse .xgmi) := by
  have hpairs : ((List.range topo.gpus.length).flatMap fun a ↦
      (List.range' (a + 1) (topo.gpus.length - (a + 1))).map fun b ↦ topo.linkBetween a b) =
        (pairKinds topo.links topo.gpus.length).map some := by
    rw [pairKinds, List.map_flatMap]
    refine List.flatMap_congr fun a _ ↦ ?_
    rw [List.map_map]
    refine List.map_congr_left fun b hb ↦ ?_
    exact linkBetween_of_ne topo (Nat.ne_of_lt (List.mem_range'_1.mp hb).1)
  unfold Topology.bottleneckLink
  rw [if_neg (not_lt.mpr h)]
  dsimp only
  rw [hpairs]
  rfl

/-- The bottleneck is the worst of all pairs, whatever the links. -/
theorem exists_bottleneck (topo : Topology) {n : ℕ} (h : 2 ≤ n) (hn : topo.gpus.length = n) :
    ∃ worst, topo.bottleneckLink = some worst ∧
      IsWorst (fun a b : Fin n ↦ recordedKind topo.links a b) worst := by
  obtain ⟨hstart, hle, hmem⟩ := foldl_worse (pairKinds topo.links n) .xgmi
  have hpair : ∀ {a b : Fin n}, a ≠ b → recordedKind topo.links a b ∈ pairKinds topo.links n := by
    intro a b hne
    rcases lt_or_gt_of_ne hne with hlt | hlt
    · exact mem_pairKinds_iff.mpr ⟨a, b, hlt, b.isLt, rfl⟩
    · exact mem_pairKinds_iff.mpr ⟨b, a, hlt, a.isLt, recordedKind_comm topo.links b a⟩
  refine ⟨_, hn ▸ bottleneckLink_eq topo (hn ▸ h), fun hne ↦ hle _ (hpair hne), ?_⟩
  rcases hmem with hxgmi | hmem
  · -- Nothing is worse than the best kind, so any pair is of that kind.
    have hone : (⟨1, h⟩ : Fin n) ≠ ⟨0, by omega⟩ := by
      rw [Ne, Fin.mk.injEq]
      exact one_ne_zero
    refine ⟨_, _, hone, ?_⟩
    have hrank := hle _ (hpair hone)
    rw [hxgmi] at hrank ⊢
    cases hkind : recordedKind topo.links (⟨1, h⟩ : Fin n) (⟨0, by omega⟩ : Fin n) with
    | xgmi => rfl
    | pcieP2P => exact absurd (hkind ▸ hrank) (by decide)
    | hostOnly => exact absurd (hkind ▸ hrank) (by decide)
  · obtain ⟨a, b, hlt, hb, heq⟩ := mem_pairKinds_iff.mp hmem
    exact ⟨⟨a, hlt.trans hb⟩, ⟨b, hb⟩, Fin.ne_of_lt hlt, heq⟩

/-! ## What is read from `rocm-smi` -/

variable {n : ℕ} {matrix : Fin n → Fin n → LinkKind}

/-- Every pair is recorded as the table has it. -/
theorem recordedKind_parse (h : 2 ≤ n) (hsize : n ≤ UInt64.size)
    (hsymm : ∀ a b, matrix a b = matrix b a) {text : String} (htext : IsTopoOutput matrix text)
    {a b : Fin n} (hne : a ≠ b) :
    recordedKind (parseRocmSmiTopo text) a b = matrix a b := by
  have hmem := @mem_parse_iff n matrix h hsize text htext
  apply recordedKind_eq
  · rcases lt_or_gt_of_ne hne with hlt | hlt
    · exact ⟨⟨a, b, matrix a b⟩, hmem.mpr ⟨a, b, hlt, rfl⟩, .inl ⟨rfl, rfl⟩⟩
    · exact ⟨⟨b, a, matrix b a⟩, hmem.mpr ⟨b, a, hlt, rfl⟩, .inr ⟨rfl, rfl⟩⟩
  · intro link hlink hjoins
    obtain ⟨i, j, -, rfl⟩ := hmem.mp hlink
    rcases hjoins with ⟨hi, hj⟩ | ⟨hi, hj⟩
    · rw [Fin.ext hi, Fin.ext hj]
    · rw [Fin.ext hi, Fin.ext hj, hsymm]

/-- The links read from `rocm-smi` are those of its link table, whatever tables of numbers stand
around it, and the bottleneck is the worst of them; with any other links, a pair that none joins
counts as host-only.  A machine has no more cards than a `usize` counts. -/
theorem topology_of_topoOutput (h : 2 ≤ n) (hsize : n ≤ UInt64.size)
    (hsymm : ∀ a b, matrix a b = matrix b a) {text : String} (htext : IsTopoOutput matrix text)
    (topo : Topology) (hn : topo.gpus.length = n) (hlinks : topo.links = parseRocmSmiTopo text) :
    (∀ a b : Fin n, a ≠ b → topo.linkBetween a b = some (matrix a b)) ∧
      (∃ worst, topo.bottleneckLink = some worst ∧ IsWorst matrix worst) ∧
      (∀ links, ∃ worst, ({ topo with links } : Topology).bottleneckLink = some worst ∧
        IsWorst (fun a b : Fin n ↦ recordedKind links a b) worst) ∧
      ∀ links (a b : ℕ),
        (∀ link ∈ links, ¬ ((link.a = a ∧ link.b = b) ∨ (link.a = b ∧ link.b = a))) →
          recordedKind links a b = .hostOnly := by
  have hkind : ∀ {a b : Fin n}, a ≠ b → recordedKind topo.links a b = matrix a b := by
    intro a b hne
    rw [hlinks]
    exact recordedKind_parse h hsize hsymm htext hne
  refine ⟨fun a b hne ↦ ?_, ?_, fun links ↦ exists_bottleneck _ h hn,
    fun links a b ↦ recordedKind_of_missing⟩
  · rw [linkBetween_of_ne topo (Fin.val_ne_of_ne hne), hkind hne]
  · obtain ⟨worst, hworst, hle, a, b, hne, hattained⟩ := exists_bottleneck topo h hn
    refine ⟨worst, hworst, fun hne ↦ ?_, a, b, hne, ?_⟩
    · rw [← hkind hne]
      exact hle hne
    · rw [← hkind hne]
      exact hattained

def threeCards (a b : Fin 3) : LinkKind := if a = 2 ∨ b = 2 then .hostOnly else .xgmi

def threeCells (a b : Fin 3) : List Char :=
  if a = b then "0".toList
  else if a = 2 then "PHB".toList
  else if b = 2 then "SYS".toList
  else "XGMI".toList

def wordRow (words : List String) : List (List Char) := words.map String.toList

/-- A table of weights for the three cards, with its title. -/
def weightRows : List (List (List Char)) :=
  [wordRow ["=====", "Weight", "between", "two", "GPUs", "====="], headerRow 3,
    wordRow ["GPU0", "0", "15", "40"], wordRow ["GPU1", "15", "0", "40"],
    wordRow ["GPU2", "40", "40", "0"]]

/-- The lines of an output for the three cards, with weights before the links and after. -/
def threeLines : List (List Char) :=
  let weights := ["===== Weight between two GPUs =====", "       GPU0   GPU1   GPU2",
    "GPU0   0      15     40", "GPU1   15     0      40", "GPU2   40     40     0"]
  let links := ["       GPU0   GPU1   GPU2", "GPU2   PHB    PHB    0", "GPU0   0      XGMI   SYS",
    "GPU1   XGMI   0      SYS"]
  (weights ++ links ++ weights).map String.toList

def threeText : String := String.ofList (['\n'].intercalate threeLines)

theorem looksAlike_weightRows : ∀ row ∈ weightRows, LooksAlike 3 row := by
  have hnumbers : ∀ (i : ℕ) (cells : List (List Char)), cells.length = 3 →
      (∀ cell ∈ cells, IsPlainNumber cell) → LooksAlike 3 (gpuLabel i :: cells) :=
    fun i cells hlength hcells ↦ .inr (.inl ⟨i, cells, rfl, hlength, hcells⟩)
  have htitle : ¬ "GPU".toList <+: "=====".toList := by decide
  refine List.forall_mem_cons.mpr ⟨.inr (.inr fun first hfirst ↦ ?_), ?_⟩
  · obtain rfl := Option.some.inj hfirst
    exact htitle
  · refine List.forall_mem_cons.mpr ⟨.inl rfl, ?_⟩
    refine List.forall_mem_cons.mpr ⟨hnumbers 0 _ (by decide) (by decide), ?_⟩
    refine List.forall_mem_cons.mpr ⟨hnumbers 1 _ (by decide) (by decide), ?_⟩
    exact List.forall_mem_singleton.mpr (hnumbers 2 _ (by decide) (by decide))

theorem isTopoOutput_three : IsTopoOutput threeCards threeText := by
  refine ⟨weightRows, _, weightRows, looksAlike_weightRows, ⟨[2, 0, 1], threeCells, by decide,
    by decide, rfl⟩, looksAlike_weightRows, ?_⟩
  have hrows : threeLines.map splitWhitespace = weightRows ++
      (headerRow 3 :: ([2, 0, 1] : List (Fin 3)).map fun (i : Fin 3) ↦
        gpuLabel i :: List.ofFn (threeCells i)) ++ weightRows := by
    decide +kernel
  have hlines : ∀ line ∈ threeLines, '\n' ∉ line := by decide +kernel
  rw [← hrows]
  exact rendered_of_lines String.toList_ofList hlines

def threeTopology : Topology where
  gpus := List.replicate 3
    { vendor := .amd, vramMb := none, vramUsedMb := none, gttMb := none, memory := .unknown
      gfxArch := none }
  links := parseRocmSmiTopo threeText
  hostMem := none

/-- The bottleneck of the three cards is the worst link of their table. -/
theorem topology_of_topoOutput_three :
    ∃ worst, threeTopology.bottleneckLink = some worst ∧ IsWorst threeCards worst := by
  have hsize : 3 ≤ UInt64.size := by decide
  have hsymm : ∀ a b, threeCards a b = threeCards b a := by decide
  have hlinks : threeTopology.links = parseRocmSmiTopo threeText := by rw [threeTopology]
  exact (topology_of_topoOutput (by decide) hsize hsymm isTopoOutput_three threeTopology
    List.length_replicate hlinks).2.1

end Cameo.Detect
