import Sierra.Cache.Stored
import Sierra.Proofs.Cache.Ledger
import Sierra.Shell.Session

/-!
# What a failed build leaves behind

The artifact is written before the LLVM code, and a later cache looks at the artifact only.
-/

namespace Sierra.StoredCache

open MemoryCache (opened)

/-! ## Running in a session -/

section

variable {σ ε α β : Type} (s : σ)

lemma run_bind (p : ExceptT ε (StateM σ) α) (f : α → ExceptT ε (StateM σ) β) :
    (p >>= f) s = match p s with | (.ok a, s') => f a s' | (.error e, s') => (.error e, s') := by
  show (match p s with | (r, s') => ExceptT.bindCont f r s') = _
  rcases p s with ⟨_ | _, _⟩ <;> rfl

lemma run_mk (r : Except ε α) : ExceptT.mk (m := StateM σ) (pure r) s = (r, s) := rfl

end

abbrev ask (c : StoredCache) (key fingerprint : String) (outcome : Except Failure Artifact) :
    StateM Session (Except Failure Executable × StoredCache) :=
  c.get false key fingerprint fun _ => outcome

variable {c d : StoredCache} {s : Session} {t : FileTree} {key fingerprint : String}
  {failure : Failure} {outcome : Except Failure Artifact} {x : Executable}

lemma save_ok {path : String} {content : Bytes}
    (h : (s.tree.update path fun _ => content) = .ok t) :
    save (m := StateM Session) path content s = (.ok (), { s with tree := t }) := by
  have hwrite : Shell.writeFile (m := ExceptT Failure (StateM Session)) path content s =
      (Session.onTree (fun t => t.update path fun _ => content) s).map Except.ok id := rfl
  rw [save, run_bind, hwrite, Session.onTree, h]
  rfl

lemma store_error (h : opened key outcome = .error failure) :
    c.store (m := StateM Session) key outcome s = (.error failure, s) := by
  cases outcome with
  | error _ =>
    cases h
    rfl
  | ok a =>
    have hload : Executable.load { a with key := key } = .error failure := h
    simp only [store, run_bind, run_mk, hload]

lemma store_unwritten (h : opened key outcome = .ok x) (hcode : c.writesCode)
    (hemit : Llvm.emitModule (x.artifact.module.getD default) = .error failure)
    (hwrite : s.tree.update (c.pathOf key artifactExtension) (fun _ => x.artifact.encode) = .ok t) :
    c.store (m := StateM Session) key outcome s = (.error failure, { s with tree := t }) := by
  obtain ⟨a, rfl, hload⟩ := except_bind_eq_ok.1 h
  rw [Executable.artifact_of_load hload] at hemit hwrite
  simp only [store, run_bind, run_mk, hload, save_ok hwrite, hcode, hemit, if_true]

lemma compilations_remember (c : StoredCache) (r : Except Failure Executable) :
    (c.remember key r).compilations = c.compilations := by
  unfold remember
  split
  · rfl
  · split <;> rfl

lemma ask_none (hnew : c.lookup key = none)
    (hload : c.load (m := StateM Session) key fingerprint s = (.ok none, s)) :
    ∃ c', c'.compilations = c.compilations + 1 ∧ c.ask key fingerprint outcome s =
      let built := c.store (m := StateM Session) key outcome s
      ((built.1, c'), built.2) := by
  refine ⟨{ c with compilations := c.compilations + 1 }.remember key
    (c.store (m := StateM Session) key outcome s).1, compilations_remember _ _, ?_⟩
  simp only [ask, get, hnew, fetch, Bool.false_eq_true, if_false, bind, StateT.bind, hload]
  rfl

/-! ## The next cache -/

/-- A failed compilation leaves the files as they were, and the next cache compiles again. When only
the code could not be written, the next cache returns the executable that was refused before. -/
theorem unwritten_code_is_ignored (hdir : d.dir = c.dir) (hnew : c.lookup key = none)
    (hnext : d.lookup key = none)
    (hload : c.load (m := StateM Session) key fingerprint s = (.ok none, s))
    (later : Except Failure Artifact) :
    let first := c.ask key fingerprint outcome s
    let next := (d.ask key fingerprint later first.2).1
    (∀ failure, opened key outcome = .error failure →
      first.1.1 = .error failure ∧ first.2 = s ∧ next.2.compilations = d.compilations + 1) ∧
    ∀ x failure, opened key outcome = .ok x → x.artifact.options = fingerprint →
      Artifact.decode x.artifact.encode = .ok x.artifact → c.writesCode →
      Llvm.emitModule (x.artifact.module.getD default) = .error failure →
      (s.tree.update (c.pathOf key artifactExtension) (fun _ => x.artifact.encode) >>=
        (·.read (c.pathOf key artifactExtension))) = .ok x.artifact.encode →
      first.1.1 = .error failure ∧ next.1 = .ok x ∧ next.2.compilations = d.compilations := by
  intro first next
  have hpath : d.pathOf key artifactExtension = c.pathOf key artifactExtension := by
    rw [pathOf, pathOf, hdir]
  obtain ⟨c', -, hfirst⟩ : ∃ c', _ ∧ first = _ := ask_none hnew hload
  refine ⟨fun failure h => ?_, fun x failure h hoptions hback hcode hemit hfile => ?_⟩
  · rw [store_error h] at hfirst
    have hagain : d.load (m := StateM Session) key fingerprint s = (.ok none, s) := by
      rw [← hload, load, load, hpath]
    obtain ⟨d', hcount, hbuilt⟩ : ∃ d', _ ∧ d.ask key fingerprint later s = _ :=
      ask_none hnext hagain
    simp only [next, hfirst, hbuilt, hcount, and_self]
  · obtain ⟨t, hwrite, hread⟩ := except_bind_eq_ok.1 hfile
    rw [store_unwritten h hcode hemit hwrite] at hfirst
    obtain ⟨a, rfl, hopen⟩ := except_bind_eq_ok.1 h
    have hartifact := Executable.artifact_of_load hopen
    rw [hartifact] at hread hback hoptions
    have hagain : d.load (m := StateM Session) key fingerprint { s with tree := t } =
        (.ok (some x), { s with tree := t }) := by
      simp only [load, bind, StateT.bind, Shell.readFile, hpath, hread, accept, hback, hopen,
        hartifact, hoptions, Except.mapError, Except.bind, and_self, if_true]
      rfl
    have hfound : next = (.ok x, d.remember key (.ok x)) := by
      simp only [next, hfirst, ask, get, hnext, fetch, Bool.false_eq_true, if_false, bind,
        StateT.bind, hagain]
      rfl
    simp only [hfirst, hfound, compilations_remember, and_self]

def wide : Artifact where
  version := 1
  key := "k"
  module := some {
    name := "m"
    funcs := [{
      name := "f"
      params := [.int 257]
      values := #[.int 257]
      blocks := #[⟨0, [0], [], .ret []⟩] }] }

set_option maxRecDepth 20000 in
theorem wide_is_reused :
    let c : StoredCache := { dir := "/" }
    let first := c.ask "k" "" (.ok wide) { tree := { here := "/" } }
    first.1.1.isOk = false ∧ (c.ask "k" "" (.error .cancelled) first.2).1.1.isOk = true := by
  intro c first
  have hmissing : FileTree.read ⟨"/", [], []⟩ (c.pathOf "k" artifactExtension) =
      .error ⟨"open", "/k.sna", .missing⟩ := by decide +kernel
  have hload : c.load (m := StateM Session) "k" "" { tree := ⟨"/", [], []⟩ } =
      (.ok none, { tree := ⟨"/", [], []⟩ }) := by
    simp only [load, bind, StateT.bind, Shell.readFile, hmissing, if_true]
    rfl
  have hwide : wide.Storable := by
    refine ⟨?_, rfl, rfl⟩
    rintro _ ⟨⟩
    exact List.forall_mem_singleton.2 ⟨by simp [Ir.Terminator.Proper], by simp⟩
  have hemit : Llvm.emitModule (wide.module.getD default) = .error _ := rfl
  have hopen : opened "k" (.ok wide) = .ok ⟨wide, _⟩ := rfl
  obtain ⟨hfirst, hnext, -⟩ :=
    (unwritten_code_is_ignored rfl rfl rfl hload (.error .cancelled)).2 _ _ hopen rfl
      (hwide.decode_encode rfl rfl) rfl hemit (by decide +kernel)
  rw [show first.1.1 = _ from hfirst, hnext]
  exact ⟨rfl, rfl⟩

end Sierra.StoredCache
