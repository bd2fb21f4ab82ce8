import CmakeFrame.Lib.Dirs
import CmakeFrame.Lib.Sys
import CmakeFrame.Lib.Threads
import Mathlib.Data.List.Range

/-!
# `common/DirUtil.cpp` and `remainFile/src/Incommon.h`: making directories

`mkdirs` goes through a path and makes each directory that it does not find. The gateways write to shared
directories, so that several calls make the same directories at the same time. `mkdirs` of `DirUtil.cpp`
goes on when `mkdir` fails; that of `Incommon.h` returns -1.

* `mkdirs`, `makeDir`, `makeDirP`: the programs; `program_leads`: each leads to its path.
* `dirSystem`: any number of calls, with the test and the `mkdir` as steps of their own.
* `CallOk`: the invariant; `path_made`: a call that returned 0 has made its path, whatever came in between.
* `mkdirs_fails_iff`: `mkdirs` of `Incommon.h` fails exactly when another call makes a directory between
  its test and its `mkdir`.
-/

namespace CmakeFrame
namespace DirUtil

open Lib

/-! ## The programs -/

/-- The paths that end before a slash at `start` or behind. -/
def slashPaths (start : Nat) (path : Bytes) : List Bytes :=
  (List.range path.length).filterMap fun i =>
    if start ≤ i ∧ path[i]? = some 47 then some (path.take i) else none

/-- `mkdirs`: its loop begins at 0 in `DirUtil.cpp` and at 1 in `Incommon.h`. -/
def mkdirs (start : Nat) (path : Bytes) : List Instr :=
  (slashPaths start path).map .ensure ++ if path = [] then [] else [.ensure path]

/-- `MakeDir` of a path that is not empty. -/
def makeDir (path : Bytes) : List Instr :=
  .skipIf path (mkdirs 0 path).length :: mkdirs 0 path

/-- `MakeDirP` of a path that is not empty; in its loop it calls `MakeDir`. -/
def makeDirP (path : Bytes) : List Instr :=
  (slashPaths (if path.head? = some 47 then 1 else 0) path).flatMap makeDir ++ makeDir path

inductive DirCall
  | mkdirs
  | MakeDir
  | MakeDirP
  /-- `mkdirs` of `Incommon.h` -/
  | remainMkdirs
  deriving DecidableEq

/-- The program of a call, or what it returns at once. -/
def DirCall.program (path : Bytes) : DirCall → Int ⊕ List Instr
  | .mkdirs => .inr (DirUtil.mkdirs 0 path)
  | .MakeDir => if path = [] then .inl (-1) else .inr (makeDir path)
  | .MakeDirP => if path = [] ∨ 4096 < path.length then .inl (-1) else .inr (makeDirP path)
  | .remainMkdirs => .inr (DirUtil.mkdirs 1 path)

/-! ## Any number of calls -/

/-- Where a call is. -/
inductive Pc
  | run (kind : DirCall) (path : Bytes) (todo : List Instr)
  /-- `access` has not found `dir`. -/
  | make (kind : DirCall) (path dir : Bytes) (todo : List Instr)
  | returned (kind : DirCall) (path : Bytes) (ret : Int)
  deriving DecidableEq

structure DirState where
  tree : Tree
  calls : List Pc

inductive DirAct
  | call (kind : DirCall) (path : Bytes)
  /-- `granted` is what `mkdir` gets. -/
  | step (i : Nat) (granted : Bool)

/-- A path as the buffers of 1024 bytes hold it, without "..". -/
def Fits (path : Bytes) : Prop := path.length < 1024 ∧ 0 ∉ path ∧ [46, 46] ∉ names path

instance (path : Bytes) : Decidable (Fits path) :=
  decidable_of_iff (path.length < 1024 ∧ 0 ∉ path ∧ (names path).contains [46, 46] = false)
    (by simp [Fits])

namespace DirState

def stepCall (cwd : List Bytes) (t : Tree) (granted : Bool) : Pc → Tree × Pc
  | .run kind path [] => (t, .returned kind path 0)
  | .run kind path (.ensure dir :: rest) =>
    if t.access cwd dir then (t, .run kind path rest) else (t, .make kind path dir rest)
  | .run kind path (.skipIf dir n :: rest) =>
    if t.access cwd dir then (t, .run kind path (rest.drop n)) else (t, .run kind path rest)
  | .make kind path dir rest =>
    let r := t.mkdir cwd dir granted
    -- `mkdirs` of `DirUtil.cpp` reports the error and goes on
    if r.1 = false ∧ kind = .remainMkdirs then (r.2, .returned kind path (-1))
    else (r.2, .run kind path rest)
  | .returned kind path ret => (t, .returned kind path ret)

def next (cwd : List Bytes) (s : DirState) : DirAct → Option DirState
  | .call kind path =>
    if Fits path then
      match kind.program path with
      | .inl ret => some { s with calls := s.calls ++ [.returned kind path ret] }
      | .inr todo => some { s with calls := s.calls ++ [.run kind path todo] }
    else none
  | .step i granted =>
    (s.calls[i]?).map fun pc =>
      let r := stepCall cwd s.tree granted pc
      ⟨r.1, s.calls.set i r.2⟩

end DirState

def dirSystem (cwd : List Bytes) (t : Tree) : Sys DirState DirAct where
  init := ⟨t, []⟩
  next := DirState.next cwd

/-- No `mkdir` fails for another reason, and nothing but directories stands where a call makes one. -/
def Granted (cwd : List Bytes) (s : DirState) : DirAct → Prop
  | .call kind path =>
    match kind.program path with
    | .inl _ => True
    | .inr todo => ∀ i ∈ todo, s.tree.files.contains (Tree.place cwd i.path) = false
  | .step _ granted => granted = true

instance (cwd : List Bytes) (s : DirState) (a : DirAct) : Decidable (Granted cwd s a) := by
  cases a with
  | call kind path =>
    unfold Granted
    dsimp only
    split <;> infer_instance
  | step i granted =>
    unfold Granted
    infer_instance

/-- No `mkdirs` of `Incommon.h` finds at its `mkdir` what its test has not found. -/
def First (cwd : List Bytes) (s : DirState) : DirAct → Prop
  | .call _ _ => True
  | .step i _ =>
    match s.calls[i]? with
    | some (.make .remainMkdirs _ dir _) => s.tree.isDir (Tree.place cwd dir) = false
    | _ => True

instance (cwd : List Bytes) (s : DirState) (a : DirAct) : Decidable (First cwd s a) := by
  cases a with
  | call kind path => exact inferInstanceAs (Decidable True)
  | step i granted =>
    unfold First
    dsimp only
    split <;> infer_instance

/-! ## Where a program leads -/

section

variable {post : Set (List Bytes) → Prop} {K : Set (List Bytes)} {path : Bytes} {rest : List Instr}

/-- The loop of `mkdirs` from `i` on, if the paths that end before a slash in front of `i` are there. -/
theorem leads_slashPaths {start : Nat} (hstart : start ≤ 1) {n i : Nat} (hlen : i + n = path.length)
    (hroot : [] ∈ K) (hbefore : ∀ j < i, path[j]? = some 47 → names (path.take j) ∈ K)
    (hrest : ∀ K', K ⊆ K' → (∀ j < path.length, path[j]? = some 47 → names (path.take j) ∈ K') →
      Leads post K' rest) :
    Leads post K (((List.range' i n).filterMap fun i =>
      if start ≤ i ∧ path[i]? = some 47 then some (path.take i) else none).map .ensure ++ rest) := by
  induction n generalizing i K with
  | zero =>
    obtain rfl : i = path.length := by omega
    exact hrest K subset_rfl hbefore
  | succ n ih =>
    rw [List.range'_succ]
    by_cases hi : start ≤ i ∧ path[i]? = some 47
    · rw [List.filterMap_cons_some (by rw [if_pos hi]), List.map_cons, List.cons_append]
      have htake : (path.take i).length = i := by
        rw [List.length_take]
        omega
      refine .ensure (reaches_of_slashes hroot fun j hj hslash => ?_) ?_
      · rw [htake] at hj
        rw [List.getElem?_take_of_lt hj] at hslash
        rw [List.take_take, Nat.min_eq_left hj.le]
        exact hbefore j hj hslash
      · refine ih (by omega) (Set.mem_insert_of_mem _ hroot) (fun j hj hslash => ?_)
          fun K' hK' => hrest K' ((Set.subset_insert _ _).trans hK')
        rcases Nat.lt_succ_iff_lt_or_eq.mp hj with hj | rfl
        · exact Set.mem_insert_of_mem _ (hbefore j hj hslash)
        · exact Set.mem_insert _ _
    · rw [List.filterMap_cons_none (by rw [if_neg hi])]
      refine ih (by omega) hroot (fun j hj hslash => ?_) hrest
      rcases Nat.lt_succ_iff_lt_or_eq.mp hj with hj | rfl
      · exact hbefore j hj hslash
      · -- only a slash at the begin is left out
        obtain rfl : j = 0 := by
          have : ¬ start ≤ j := fun h => hi ⟨h, hslash⟩
          omega
        exact hroot

theorem leads_mkdirs {start : Nat} (hstart : start ≤ 1) (hroot : [] ∈ K)
    (hrest : ∀ K', K ⊆ K' → names path ∈ K' → Leads post K' rest) :
    Leads post K (mkdirs start path ++ rest) := by
  rw [mkdirs, List.append_assoc, slashPaths, List.range_eq_range']
  refine leads_slashPaths hstart (Nat.zero_add _) hroot (fun j hj => absurd hj (Nat.not_lt_zero j))
    fun K' hK' hslash => ?_
  by_cases hp : path = []
  · rw [if_pos hp, List.nil_append]
    exact hrest K' hK' (by rw [hp]; exact hK' hroot)
  · rw [if_neg hp, List.singleton_append]
    exact .ensure (reaches_of_slashes (hK' hroot) hslash)
      (hrest _ (hK'.trans (Set.subset_insert _ _)) (Set.mem_insert _ _))

theorem leads_makeDir (hroot : [] ∈ K)
    (hrest : ∀ K', K ⊆ K' → names path ∈ K' → Leads post K' rest) :
    Leads post K (makeDir path ++ rest) := by
  refine .skipIf (leads_mkdirs (Nat.zero_le 1) hroot hrest) ?_
  change Leads post _ ((mkdirs 0 path ++ rest).drop (mkdirs 0 path).length)
  rw [List.drop_left]
  exact hrest _ (Set.subset_insert _ _) (Set.mem_insert _ _)

theorem leads_flatMap_makeDir (paths : List Bytes) (hroot : [] ∈ K)
    (hrest : ∀ K', K ⊆ K' → Leads post K' rest) :
    Leads post K (paths.flatMap makeDir ++ rest) := by
  induction paths generalizing K with
  | nil => exact hrest K subset_rfl
  | cons p paths ih =>
    rw [List.flatMap_cons, List.append_assoc]
    exact leads_makeDir hroot fun K' hK' _ => ih (hK' hroot) fun K'' hK'' => hrest K'' (hK'.trans hK'')

/-- Each call leads to its path. -/
theorem program_leads {kind : DirCall} {todo : List Instr} (h : kind.program path = .inr todo) :
    Leads (names path ∈ ·) {[]} todo := by
  have hroot : ([] : List Bytes) ∈ ({[]} : Set (List Bytes)) := rfl
  have hmake : Leads (names path ∈ ·) {[]} (makeDir path ++ []) :=
    leads_makeDir hroot fun K' _ hmem => .done hmem
  cases kind with
  | mkdirs =>
    cases h
    have : Leads (names path ∈ ·) {[]} (mkdirs 0 path ++ []) := leads_mkdirs (Nat.zero_le 1) hroot
      fun K' _ hmem => .done hmem
    rwa [List.append_nil] at this
  | MakeDir =>
    simp only [DirCall.program] at h
    split at h
    · cases h
    · cases h
      rwa [List.append_nil] at hmake
  | MakeDirP =>
    simp only [DirCall.program] at h
    split at h
    · cases h
    · cases h
      refine leads_flatMap_makeDir _ hroot fun K' hK' => ?_
      have : Leads (names path ∈ ·) K' (makeDir path ++ []) := leads_makeDir (hK' hroot)
        fun K'' _ hmem => .done hmem
      rwa [List.append_nil] at this
  | remainMkdirs =>
    cases h
    have : Leads (names path ∈ ·) {[]} (mkdirs 1 path ++ []) := leads_mkdirs le_rfl hroot
      fun K' _ hmem => .done hmem
    rwa [List.append_nil] at this

end

/-! ## The paths of a program -/

theorem prefix_of_mem_slashPaths {start : Nat} {path p : Bytes} (h : p ∈ slashPaths start path) :
    p <+: path := by
  obtain ⟨j, -, hj⟩ := List.mem_filterMap.mp h
  split at hj
  · cases hj
    exact List.take_prefix j path
  · cases hj

theorem prefix_of_mem_mkdirs {start : Nat} {path : Bytes} {i : Instr} (h : i ∈ mkdirs start path) :
    i.path <+: path := by
  rcases List.mem_append.mp h with h | h
  · obtain ⟨p, hp, rfl⟩ := List.mem_map.mp h
    exact prefix_of_mem_slashPaths hp
  · split at h
    · cases h
    · obtain rfl := List.mem_singleton.mp h
      exact List.prefix_rfl

theorem prefix_of_mem_makeDir {path : Bytes} {i : Instr} (h : i ∈ makeDir path) : i.path <+: path := by
  rcases List.mem_cons.mp h with rfl | h
  · exact List.prefix_rfl
  · exact prefix_of_mem_mkdirs h

theorem prefix_of_mem_program {kind : DirCall} {path : Bytes} {todo : List Instr}
    (h : kind.program path = .inr todo) {i : Instr} (hi : i ∈ todo) : i.path <+: path := by
  cases kind with
  | mkdirs =>
    cases h
    exact prefix_of_mem_mkdirs hi
  | MakeDir =>
    simp only [DirCall.program] at h
    split at h
    · cases h
    · cases h
      exact prefix_of_mem_makeDir hi
  | MakeDirP =>
    simp only [DirCall.program] at h
    split at h
    · cases h
    · cases h
      rcases List.mem_append.mp hi with hi | hi
      · obtain ⟨p, hp, hi⟩ := List.mem_flatMap.mp hi
        exact (prefix_of_mem_makeDir hi).trans (prefix_of_mem_slashPaths hp)
      · exact prefix_of_mem_makeDir hi
  | remainMkdirs =>
    cases h
    exact prefix_of_mem_mkdirs hi

/-- Only an empty path is refused at once. -/
theorem program_inl {kind : DirCall} {path : Bytes} {ret : Int} (hfits : Fits path)
    (h : kind.program path = .inl ret) : ret = -1 ∧ path = [] ∧ kind ≠ .remainMkdirs := by
  cases kind with
  | mkdirs => cases h
  | MakeDir =>
    simp only [DirCall.program] at h
    split at h
    · rename_i hempty
      cases h
      exact ⟨rfl, hempty, nofun⟩
    · cases h
  | MakeDirP =>
    simp only [DirCall.program] at h
    split at h
    · rename_i hbad
      cases h
      have hlen := hfits.1
      exact ⟨rfl, hbad.resolve_right (by omega), nofun⟩
    · cases h
  | remainMkdirs => cases h

/-- Where a path begins. -/
def base (cwd : List Bytes) (path : Bytes) : List Bytes := if path.head? = some 47 then [] else cwd

theorem place_eq (cwd : List Bytes) (path : Bytes) :
    Tree.place cwd path = base cwd path ++ names path := by
  rw [Tree.place, base]
  split <;> rfl

/-- A prefix begins where the path does. -/
theorem place_of_prefix {cwd : List Bytes} {dir path : Bytes} (h : dir <+: path) (hne : dir ≠ []) :
    Tree.place cwd dir = base cwd path ++ names dir := by
  obtain ⟨r, rfl⟩ := h
  rw [place_eq, base, base, List.head?_append_of_ne_nil _ hne]

/-! ## The invariant -/

/-- What a call knows to be there. -/
def Stands (cwd : List Bytes) (t : Tree) (path : Bytes) (K : Set (List Bytes)) : Prop :=
  ∀ q ∈ K, t.isDir (base cwd path ++ q) = true

/-- The steps are prefixes of the path, and no other files stand there. -/
def Clear (cwd : List Bytes) (t : Tree) (path : Bytes) (todo : List Instr) : Prop :=
  ∀ i ∈ todo, i.path <+: path ∧ t.files.contains (Tree.place cwd i.path) = false

/-- What holds of a call wherever it is. -/
def CallOk (cwd : List Bytes) (t : Tree) : Pc → Prop
  | .run _ path todo =>
    ∃ K, Stands cwd t path K ∧ Leads (names path ∈ ·) K todo ∧ Clear cwd t path todo
  | .make _ path dir todo =>
    ∃ K, Stands cwd t path K ∧ Reaches K (names dir) ∧
      Leads (names path ∈ ·) (insert (names dir) K) todo ∧ Clear cwd t path (.ensure dir :: todo)
  | .returned kind path ret =>
    ret = 0 ∧ t.isDir (Tree.place cwd path) = true ∨ ret = -1 ∧ (path = [] ∨ kind = .remainMkdirs)

/-- More directories, and the same other files. -/
structure Grows (t t' : Tree) : Prop where
  isDir : ∀ q, t.isDir q = true → t'.isDir q = true
  files : t'.files = t.files

theorem CallOk.mono {cwd : List Bytes} {t t' : Tree} (ht : Grows t t') {pc : Pc}
    (h : CallOk cwd t pc) : CallOk cwd t' pc := by
  cases pc with
  | run kind path todo =>
    obtain ⟨K, hstands, hleads, hclear⟩ := h
    refine ⟨K, fun q hq => ht.isDir _ (hstands q hq), hleads, fun i hi => ?_⟩
    rw [ht.files]
    exact hclear i hi
  | make kind path dir todo =>
    obtain ⟨K, hstands, hreaches, hleads, hclear⟩ := h
    refine ⟨K, fun q hq => ht.isDir _ (hstands q hq), hreaches, hleads, fun i hi => ?_⟩
    rw [ht.files]
    exact hclear i hi
  | returned kind path ret => exact h.imp_left fun h => ⟨h.1, ht.isDir _ h.2⟩

theorem Stands.insert {cwd : List Bytes} {t : Tree} {path : Bytes} {K : Set (List Bytes)}
    (h : Stands cwd t path K) {q : List Bytes} (hq : t.isDir (base cwd path ++ q) = true) :
    Stands cwd t path (Insert.insert q K) := by
  rintro r (rfl | hr)
  · exact hq
  · exact h r hr

/-- What `access` finds is a directory. -/
theorem isDir_of_access {cwd : List Bytes} {t : Tree} {dir path : Bytes} (hp : dir <+: path)
    (hfile : t.files.contains (Tree.place cwd dir) = false) (h : t.access cwd dir = true) :
    t.isDir (base cwd path ++ names dir) = true := by
  rw [Tree.access, hfile, Bool.or_false, Bool.and_eq_true, decide_eq_true_eq] at h
  rw [← place_of_prefix hp h.1]
  exact h.2

theorem isDir_base {cwd : List Bytes} {t : Tree} (hcwd : t.isDir cwd = true) (path : Bytes) :
    t.isDir (base cwd path) = true := by
  rw [base]
  split
  · rfl
  · exact hcwd

/-- A `mkdir` that reaches its directory makes it if it is not there. -/
theorem mkdir_fst {cwd : List Bytes} {t : Tree} {dir path : Bytes} {K : Set (List Bytes)}
    (hcwd : t.isDir cwd = true) (hstands : Stands cwd t path K) (hreaches : Reaches K (names dir))
    (hp : dir <+: path) (hfile : t.files.contains (Tree.place cwd dir) = false) :
    (t.mkdir cwd dir true).1 = !t.isDir (Tree.place cwd dir) := by
  cases hdir : t.isDir (Tree.place cwd dir) with
  | true =>
    refine congrArg Prod.fst (if_neg ?_)
    rintro ⟨-, hne, habsent, -⟩
    simp [Tree.access, hne, hdir] at habsent
  | false =>
    have hne : dir ≠ [] := by
      rintro rfl
      rw [place_eq, names_nil, List.append_nil, isDir_base hcwd] at hdir
      cases hdir
    have habsent : t.access cwd dir = false := by
      rw [Tree.access, hfile, hdir, Bool.or_false, Bool.and_false]
    have hplace : Tree.place cwd dir = base cwd path ++ names dir := place_of_prefix hp hne
    refine congrArg Prod.fst (if_pos ⟨rfl, hne, habsent, ?_⟩)
    rw [hplace] at hdir ⊢
    rcases hreaches with hmem | ⟨r, hr, p, hrp⟩
    · rw [hstands _ hmem] at hdir
      cases hdir
    · rw [hrp, ← List.append_assoc, List.dropLast_concat]
      exact hstands r hr

theorem isDir_of_mkdir {cwd : List Bytes} {t : Tree} {dir : Bytes}
    (h : (t.mkdir cwd dir true).1 = !t.isDir (Tree.place cwd dir)) :
    (t.mkdir cwd dir true).2.isDir (Tree.place cwd dir) = true := by
  cases hdir : t.isDir (Tree.place cwd dir) with
  | true => exact Tree.mkdir_isDir hdir
  | false =>
    rw [hdir] at h
    unfold Tree.mkdir at h ⊢
    split at h
    · rename_i hok
      rw [if_pos hok]
      simp [Tree.isDir]
    · cases h

/-- Behind it, the directory is there. -/
theorem isDir_mkdir {cwd : List Bytes} {t : Tree} {dir path : Bytes} {K : Set (List Bytes)}
    (hcwd : t.isDir cwd = true) (hstands : Stands cwd t path K) (hreaches : Reaches K (names dir))
    (hp : dir <+: path) (hfile : t.files.contains (Tree.place cwd dir) = false) :
    (t.mkdir cwd dir true).2.isDir (base cwd path ++ names dir) = true := by
  by_cases hne : dir = []
  · subst hne
    rw [names_nil, List.append_nil]
    exact Tree.mkdir_isDir (isDir_base hcwd path)
  · rw [← place_of_prefix hp hne]
    exact isDir_of_mkdir (mkdir_fst hcwd hstands hreaches hp hfile)

/-! ## Every interleaving -/

/-- Behind any steps. -/
structure Made (cwd : List Bytes) (s : DirState) : Prop where
  here : s.tree.isDir cwd = true
  calls : ∀ pc ∈ s.calls, CallOk cwd s.tree pc

/-- A step of a call keeps what it knows, and makes directories only. -/
theorem stepCall_ok {cwd : List Bytes} {t : Tree} (hcwd : t.isDir cwd = true) {pc : Pc}
    (h : CallOk cwd t pc) :
    Grows t (DirState.stepCall cwd t true pc).1 ∧
      CallOk cwd (DirState.stepCall cwd t true pc).1 (DirState.stepCall cwd t true pc).2 := by
  have hsame : Grows t t := ⟨fun _ hq => hq, rfl⟩
  match pc, h with
  | .run kind path [], ⟨K, hstands, hleads, _⟩ =>
    refine ⟨hsame, .inl ⟨rfl, ?_⟩⟩
    cases hleads with
    | done hmem =>
      rw [place_eq]
      exact hstands _ hmem
  | .run kind path (.ensure dir :: rest), ⟨K, hstands, hleads, hclear⟩ =>
    obtain ⟨hp, hfile⟩ := hclear _ List.mem_cons_self
    cases hleads with
    | ensure hreaches hleads =>
      simp only [DirState.stepCall]
      split
      · rename_i haccess
        exact ⟨hsame, _, hstands.insert (isDir_of_access hp hfile haccess), hleads,
          fun i hi => hclear i (List.mem_cons_of_mem _ hi)⟩
      · exact ⟨hsame, K, hstands, hreaches, hleads, hclear⟩
  | .run kind path (.skipIf dir n :: rest), ⟨K, hstands, hleads, hclear⟩ =>
    obtain ⟨hp, hfile⟩ := hclear _ List.mem_cons_self
    have hrest : Clear cwd t path rest := fun i hi => hclear i (List.mem_cons_of_mem _ hi)
    cases hleads with
    | skipIf hleads hskip =>
      simp only [DirState.stepCall]
      split
      · rename_i haccess
        exact ⟨hsame, _, hstands.insert (isDir_of_access hp hfile haccess), hskip,
          fun i hi => hrest i (List.mem_of_mem_drop hi)⟩
      · exact ⟨hsame, K, hstands, hleads, hrest⟩
  | .make kind path dir rest, ⟨K, hstands, hreaches, hleads, hclear⟩ =>
    obtain ⟨hp, hfile⟩ := hclear _ List.mem_cons_self
    have hgrows : Grows t (t.mkdir cwd dir true).2 :=
      ⟨fun _ hq => Tree.mkdir_isDir hq, Tree.mkdir_files⟩
    simp only [DirState.stepCall]
    split
    · rename_i hfail
      exact ⟨hgrows, .inr ⟨rfl, .inr hfail.2⟩⟩
    · refine ⟨hgrows, _, ?_, hleads, fun i hi => ?_⟩
      · exact Stands.insert (fun q hq => Tree.mkdir_isDir (hstands q hq))
          (isDir_mkdir hcwd hstands hreaches hp hfile)
      · rw [hgrows.files]
        exact hclear i (List.mem_cons_of_mem _ hi)
  | .returned kind path ret, h => exact ⟨hsame, h⟩

theorem Made.next {cwd : List Bytes} {s s' : DirState} {a : DirAct} (hs : Made cwd s)
    (hg : Granted cwd s a) (h : s.next cwd a = some s') : Made cwd s' := by
  cases a with
  | call kind path =>
    simp only [DirState.next] at h
    split at h
    · rename_i hfits
      unfold Granted at hg
      cases hk : kind.program path with
      | inl ret =>
        simp only [hk, Option.some.injEq] at h
        subst h
        refine ⟨hs.here, fun pc hpc => ?_⟩
        rcases List.mem_append.mp hpc with hpc | hpc
        · exact hs.calls pc hpc
        · obtain rfl := List.mem_singleton.mp hpc
          obtain ⟨hret, hempty, -⟩ := program_inl hfits hk
          exact .inr ⟨hret, .inl hempty⟩
      | inr todo =>
        simp only [hk, Option.some.injEq] at h hg
        subst h
        refine ⟨hs.here, fun pc hpc => ?_⟩
        rcases List.mem_append.mp hpc with hpc | hpc
        · exact hs.calls pc hpc
        · obtain rfl := List.mem_singleton.mp hpc
          refine ⟨{[]}, ?_, program_leads hk, fun i hi => ⟨prefix_of_mem_program hk hi, hg i hi⟩⟩
          rintro q rfl
          rw [List.append_nil]
          exact isDir_base hs.here path
    · cases h
  | step i granted =>
    obtain rfl : granted = true := hg
    obtain ⟨pc, hpc, rfl⟩ := Option.map_eq_some_iff.mp h
    obtain ⟨hgrows, hok⟩ := stepCall_ok hs.here (hs.calls pc (List.mem_of_getElem? hpc))
    refine ⟨hgrows.isDir _ hs.here, fun pc' hpc' => ?_⟩
    rcases List.mem_or_eq_of_mem_set hpc' with hpc' | rfl
    · exact (hs.calls pc' hpc').mono hgrows
    · exact hok

/-- No `mkdirs` of `Incommon.h` has failed. -/
def NoneFailed (s : DirState) : Prop := ∀ path, .returned .remainMkdirs path (-1) ∉ s.calls

/-- Where a call fails. -/
theorem stepCall_failed_iff {cwd : List Bytes} {t : Tree} (hcwd : t.isDir cwd = true) {pc : Pc}
    (h : CallOk cwd t pc) :
    (∃ path, (DirState.stepCall cwd t true pc).2 = .returned .remainMkdirs path (-1)) ↔
      (∃ path, pc = .returned .remainMkdirs path (-1)) ∨
      ∃ path dir todo, pc = .make .remainMkdirs path dir todo ∧ t.isDir (Tree.place cwd dir) = true := by
  match pc, h with
  | .run kind path [], _ => simp [DirState.stepCall]
  | .run kind path (.ensure dir :: rest), _ =>
    simp only [DirState.stepCall]
    split <;> simp
  | .run kind path (.skipIf dir n :: rest), _ =>
    simp only [DirState.stepCall]
    split <;> simp
  | .make kind path dir rest, ⟨K, hstands, hreaches, _, hclear⟩ =>
    obtain ⟨hp, hfile⟩ := hclear _ List.mem_cons_self
    simp only [DirState.stepCall, mkdir_fst hcwd hstands hreaches hp hfile, Bool.not_eq_false']
    split
    · rename_i hfail
      simp [hfail]
    · rename_i hgo
      simp only [reduceCtorEq, exists_false, false_or, false_iff, not_exists, not_and]
      rintro path' dir' todo' heq hdir
      cases heq
      exact hgo ⟨hdir, rfl⟩
  | .returned kind path ret, _ => simp [DirState.stepCall]

theorem noneFailed_step_iff {cwd : List Bytes} {s s' : DirState} {a : DirAct} (hs : Made cwd s)
    (hg : Granted cwd s a) (h : s.next cwd a = some s') :
    NoneFailed s' ↔ First cwd s a ∧ NoneFailed s := by
  cases a with
  | call kind path =>
    simp only [DirState.next] at h
    split at h
    · rename_i hfits
      have hold : ∀ pc, (∀ path', pc ≠ .returned .remainMkdirs path' (-1)) →
          (NoneFailed { s with calls := s.calls ++ [pc] } ↔ NoneFailed s) := by
        intro pc hpc
        simp only [NoneFailed, List.mem_append, List.mem_singleton, not_or]
        exact ⟨fun h path' => (h path').1, fun h path' => ⟨h path', fun heq => hpc path' heq.symm⟩⟩
      rw [First, true_and]
      cases hk : kind.program path with
      | inl ret =>
        simp only [hk, Option.some.injEq] at h
        subst h
        refine hold _ fun path' heq => ?_
        cases heq
        exact (program_inl hfits hk).2.2 rfl
      | inr todo =>
        simp only [hk, Option.some.injEq] at h
        subst h
        exact hold _ nofun
    · cases h
  | step i granted =>
    obtain rfl : granted = true := hg
    obtain ⟨pc, hpc, rfl⟩ := Option.map_eq_some_iff.mp h
    have hmem := List.mem_of_getElem? hpc
    have hiff := stepCall_failed_iff hs.here (hs.calls pc hmem)
    have hfirst : First cwd s (.step i true) ↔ ¬ ∃ path dir todo,
        pc = .make .remainMkdirs path dir todo ∧ s.tree.isDir (Tree.place cwd dir) = true := by
      unfold First
      simp only [hpc]
      split
      · rename_i heq
        cases heq
        simp
      · rename_i hne
        simp only [true_iff, not_exists, not_and]
        rintro path dir todo rfl
        exact absurd rfl (hne path dir todo)
    rw [hfirst]
    constructor
    · intro hnone
      have hself : ¬ ∃ path, (DirState.stepCall cwd s.tree true pc).2 =
          .returned .remainMkdirs path (-1) := by
        rintro ⟨path, heq⟩
        refine hnone path ?_
        rw [← heq]
        exact List.mem_set (List.getElem?_eq_some_iff.mp hpc).1 _
      rw [hiff, not_or] at hself
      refine ⟨hself.2, fun path hin => ?_⟩
      obtain ⟨j, hj⟩ := List.mem_iff_getElem?.mp hin
      by_cases hij : i = j
      · subst hij
        obtain rfl : pc = .returned .remainMkdirs path (-1) := Option.some.inj (hpc.symm.trans hj)
        exact hself.1 ⟨path, rfl⟩
      · exact hnone path (List.mem_iff_getElem?.mpr ⟨j, by
          simp only
          rw [List.getElem?_set_ne hij]
          exact hj⟩)
    · rintro ⟨hmake, hnone⟩ path hin
      rcases List.mem_or_eq_of_mem_set hin with hin | heq
      · exact hnone path hin
      · rcases hiff.mp ⟨path, heq.symm⟩ with ⟨path', rfl⟩ | h
        · exact hnone path' hmem
        · exact hmake h

/-! ## Runs -/

/-- If `mkdir` fails for no other reason, then behind any steps of any calls a call that has returned has
made its path, and it has returned 0; apart from an empty path, and from `mkdirs` of `Incommon.h`. -/
theorem path_made {cwd : List Bytes} {t : Tree} (hcwd : t.isDir cwd = true) {s : DirState}
    (h : ((dirSystem cwd t).only (Granted cwd)).Reach s) {kind : DirCall} {path : Bytes} {ret : Int}
    (hret : .returned kind path ret ∈ s.calls) :
    ret = 0 ∧ s.tree.isDir (Tree.place cwd path) = true ∨
      ret = -1 ∧ (path = [] ∨ kind = .remainMkdirs) := by
  have hs : Made cwd s := Sys.Reach.inv_only (I := Made cwd) ⟨hcwd, fun _ hpc => absurd hpc List.not_mem_nil⟩
    (fun _ _ _ hi hg hs => hi.next hg hs) h
  exact hs.calls _ hret

/-- Two calls for "a/b", step by step; the second one finds what the first one has made. -/
theorem path_made_two : ∃ s : DirState, s.tree.isDir [[97], [98]] = true ∧
    s.calls = [.returned .MakeDirP [97, 47, 98] 0, .returned .mkdirs [97, 47, 98] 0] := by
  have hrun : (((dirSystem [] ⟨[], []⟩).only (Granted [])).run (dirSystem [] ⟨[], []⟩).init
      ([.call .MakeDirP [97, 47, 98], .call .mkdirs [97, 47, 98], .step 0 true, .step 0 true,
        .step 1 true, .step 1 true, .step 0 true] ++ List.replicate 6 (.step 0 true) ++
        List.replicate 4 (.step 1 true))).any (fun s =>
      decide (s.calls = [.returned .MakeDirP [97, 47, 98] 0, .returned .mkdirs [97, 47, 98] 0])) =
        true := by
    decide +kernel
  obtain ⟨s, hs, hcalls⟩ := (Option.any_eq_true _ _).mp hrun
  replace hcalls := of_decide_eq_true hcalls
  have hcall : .returned .MakeDirP [97, 47, 98] 0 ∈ s.calls := by
    rw [hcalls]
    decide
  have hmade := path_made rfl (Sys.Reach.init.run _ hs) hcall
  rcases hmade with ⟨-, hdir⟩ | ⟨hret, -⟩
  · exact ⟨s, hdir, hcalls⟩
  · exact absurd hret (by decide)

/-- `mkdirs` of `Incommon.h` fails in a run exactly when the directory of one of its `mkdir`s has been made
by another call since its test. -/
theorem mkdirs_fails_iff {cwd : List Bytes} {t : Tree} (hcwd : t.isDir cwd = true) (as : List DirAct)
    {s : DirState}
    (h : ((dirSystem cwd t).only (Granted cwd)).run (dirSystem cwd t).init as = some s) :
    NoneFailed s ↔
      (((dirSystem cwd t).only (Granted cwd)).only (First cwd)).run (dirSystem cwd t).init as =
        some s := by
  have hinit : Made cwd (dirSystem cwd t).init := ⟨hcwd, fun _ hpc => absurd hpc List.not_mem_nil⟩
  have hnone : NoneFailed (dirSystem cwd t).init := fun _ => List.not_mem_nil
  have hiff := Sys.run_only_iff_of_inv (S := (dirSystem cwd t).only (Granted cwd)) (C := First cwd)
    (I := NoneFailed) (J := Made cwd)
    (fun _ _ _ hs h => hs.next (Sys.next_of_only h).1 (Sys.next_of_only h).2)
    (fun _ _ _ hs h => noneFailed_step_iff hs (Sys.next_of_only h).1 (Sys.next_of_only h).2) hinit as h
  rwa [and_iff_left hnone] at hiff

/-- Two calls test the same directory before one of them makes it. -/
theorem mkdirs_fails_iff_two : ∃ s, ((dirSystem [] ⟨[], []⟩).only (Granted [])).run
      (dirSystem [] ⟨[], []⟩).init
      [.call .remainMkdirs [97], .call .remainMkdirs [97], .step 0 true, .step 1 true, .step 0 true,
        .step 1 true] = some s ∧ ¬ NoneFailed s := by
  have hrun : (((dirSystem [] ⟨[], []⟩).only (Granted [])).run (dirSystem [] ⟨[], []⟩).init
      [.call .remainMkdirs [97], .call .remainMkdirs [97], .step 0 true, .step 1 true, .step 0 true,
        .step 1 true]).isSome = true := by
    decide +kernel
  obtain ⟨s, hs⟩ := Option.isSome_iff_exists.mp hrun
  have hnone : ((((dirSystem [] ⟨[], []⟩).only (Granted [])).only (First [])).run
      (dirSystem [] ⟨[], []⟩).init
      [.call .remainMkdirs [97], .call .remainMkdirs [97], .step 0 true, .step 1 true, .step 0 true,
        .step 1 true]).isSome = false := by
    decide +kernel
  refine ⟨s, hs, ?_⟩
  rw [mkdirs_fails_iff rfl _ hs]
  intro h
  rw [h] at hnone
  cases hnone

end DirUtil
end CmakeFrame
