/-
  The document root — a file that is served lies below it.

  1. **Specification** — on components, not on text: `Below root file` says that the components of
     the root are a proper prefix of those of the file.  Nothing in it speaks about bytes, so it is
     blind to how a URL spells `..` and to names that merely share their first letters.

  2. **The crux (`rootPrefix_prefix_iff`)** — the raw prefix test of the code decides `Below`: the
     root text gets one separator, and `SepPath.joined_sep_prefix_iff` turns the test into one on
     components.  The root `/` already ends in a separator, and there the test also lets `/` itself
     pass, which is the one case left to `fs::is_regular_file`.

  3. **Bridge** — `serveCanonical_ok` reads off what a 200 answer says about the two canonical
     paths; decoding and normalising do not enter, whatever they return.
-/
import HttpServer.StaticFile
import HttpServer.RequestLine

namespace HttpServer

open ListSearch (find)
open SepPath (joined)

/-! ## Below -/

/-- `Below root file` — the file is inside the directory, at any depth, and is not the directory. -/
def Below (root file : CanonicalPath) : Prop :=
  root.components <+: file.components ∧ root.components ≠ file.components

/-- A directory other than `/` has a text that does not end in a separator. -/
theorem CanonicalPath.text_getLast?_ne {p : CanonicalPath} (h : p.components ≠ []) :
    p.text.getLast? ≠ some sepByte := by
  obtain ⟨init, c, hcs⟩ : ∃ init c, p.components = init ++ [c] :=
    ⟨_, _, (List.dropLast_append_getLast h).symm⟩
  have hmem : c ∈ p.components := by
    rw [hcs]
    exact List.mem_append_right init (List.mem_singleton_self c)
  obtain ⟨hne, hsep, -⟩ := p.plain c hmem
  have htext : p.text = joined sepByte init ++ (sepByte :: c) := by
    rw [CanonicalPath.text, if_neg h, hcs, SepPath.joined_append, SepPath.joined_cons,
      SepPath.joined_nil, List.append_nil]
  rw [htext, List.getLast?_append_of_ne_nil _ (List.cons_ne_nil sepByte c)]
  intro hlast
  cases c with
  | nil => exact hne rfl
  | cons b c =>
    rw [List.getLast?_cons_cons] at hlast
    exact hsep (List.mem_of_getLast? hlast)

theorem CanonicalPath.text_head (p : CanonicalPath) : ∃ t, p.text = sepByte :: t := by
  unfold CanonicalPath.text
  split
  · exact ⟨[], rfl⟩
  · rename_i h
    have hjoined : joined sepByte p.components = [] ∨
        ∃ t, joined sepByte p.components = sepByte :: t :=
      SepPath.joined_eq_nil_or_cons p.components
    rcases hjoined with hnil | ht
    · cases hcs : p.components with
      | nil => exact absurd hcs h
      | cons c cs => rw [hcs, SepPath.joined_cons] at hnil; cases hnil
    · exact ht

/-- **The prefix test decides `Below`**, but for the root directory `/` itself. -/
theorem rootPrefix_prefix_iff (root file : CanonicalPath) :
    StaticFileHandler.rootPrefix root <+: file.text ↔
      Below root file ∨ (root.components = [] ∧ file.components = []) := by
  by_cases hroot : root.components = []
  · have hpre : StaticFileHandler.rootPrefix root = [sepByte] := by
      simp [StaticFileHandler.rootPrefix, CanonicalPath.text, hroot]
    obtain ⟨t, ht⟩ := file.text_head
    rw [hpre, ht, Below, hroot]
    refine iff_of_true (by simp [List.cons_prefix_cons]) ?_
    by_cases hfile : file.components = []
    · exact Or.inr ⟨rfl, hfile⟩
    · exact Or.inl ⟨List.nil_prefix, fun h => hfile h.symm⟩
  · have htext : root.text = joined sepByte root.components := if_neg hroot
    have hne : root.text ≠ [] := by
      obtain ⟨t, ht⟩ := root.text_head
      rw [ht]
      exact List.cons_ne_nil _ _
    have hpre : StaticFileHandler.rootPrefix root = joined sepByte root.components ++ [sepByte] := by
      rw [← htext]
      exact if_pos ⟨hne, CanonicalPath.text_getLast?_ne hroot⟩
    have hright : Below root file ∨ (root.components = [] ∧ file.components = []) ↔
        Below root file := by simp [hroot]
    rw [hpre, hright]
    by_cases hfile : file.components = []
    · -- the file is `/`, and its text is too short to start with a longer path
      refine iff_of_false (fun h => ?_) (fun h => hroot ?_)
      · have hlen := h.length_le
        have hshort : file.text = [sepByte] := if_pos hfile
        rw [hshort, ← htext, List.length_append, List.length_singleton] at hlen
        exact hne (List.length_eq_zero_iff.mp (by omega))
      · have hp := h.1
        rw [hfile] at hp
        exact List.prefix_nil.mp hp
    · have hfiletext : file.text = joined sepByte file.components := if_neg hfile
      rw [hfiletext]
      exact SepPath.joined_sep_prefix_iff (fun c hc => (root.plain c hc).2.1)
        (fun c hc => (file.plain c hc).2.1)

/-! ## What a 200 answer says -/

/-- A 200 answer carries the content of a regular file that passed the prefix test. -/
theorem serveCanonical_ok {fs : FileSystem} {root canonical : CanonicalPath} {resp : HttpResponse}
    (h : StaticFileHandler.serveCanonical fs root canonical = .ok (some resp))
    (hok : resp.statusCode = .ok) :
    StaticFileHandler.rootPrefix root <+: canonical.text ∧
      fs.isRegularFile canonical.text = .ok true ∧
      fs.readFile canonical.text = some resp.body := by
  unfold StaticFileHandler.serveCanonical at h
  split at h
  · -- the forbidden answer has another code
    cases h
    cases hok
  · rename_i hfind
    have hpre := find_eq_zero_iff.mp (not_not.mp hfind)
    split at h
    · cases h
    · cases h
    · rename_i hreg
      split at h
      · cases h
      · rename_i content hread
        cases h
        exact ⟨hpre, hreg, hread⟩

/-- **Static serving never leaves the document root.**  Whatever the URL and whatever the file
    system, the content of a 200 answer is that of a file below the canonical root. -/
theorem serve_below_root (fs : FileSystem) (handler : StaticFileHandler) (urlPath : Bytes)
    (resp : HttpResponse) (h : handler.serve fs urlPath = .ok (some resp))
    (hok : resp.statusCode = .ok) :
    ∃ root file : CanonicalPath,
      fs.canonical handler.documentRoot = some root ∧
        fs.canonical file.text = some file ∧
          fs.readFile file.text = some resp.body ∧ Below root file := by
  unfold StaticFileHandler.serve at h
  simp only at h
  split at h
  · cases h
  · rename_i canonical hcanonical
    split at h
    · cases h
    · rename_i root hroot
      obtain ⟨hpre, hreg, hread⟩ := serveCanonical_ok h hok
      refine ⟨root, canonical, hroot, fs.canonical_text hcanonical, hread, ?_⟩
      rcases (rootPrefix_prefix_iff root canonical).mp hpre with hbelow | ⟨-, hslash⟩
      · exact hbelow
      · have htext : canonical.text = [sepByte] := if_pos hslash
        rw [htext] at hreg
        exact absurd hreg fs.root_not_regular

/-- A directory `/srv` with one file in it, and a file `/srv2/key` beside it. -/
def exampleFileSystem : FileSystem where
  weaklyCanonical path := some path
  canonical path :=
    if path = str "/srv" then some ⟨[str "srv"], by decide⟩
    else if path = str "/srv/a.txt" then some ⟨[str "srv", str "a.txt"], by decide⟩
    else if path = str "/srv2/key" then some ⟨[str "srv2", str "key"], by decide⟩
    else none
  isRegularFile path := .ok (path = str "/srv/a.txt" ∨ path = str "/srv2/key")
  readFile path :=
    if path = str "/srv/a.txt" then some (str "hi")
    else if path = str "/srv2/key" then some (str "secret")
    else none
  canonical_text := by
    intro path p h
    split at h
    · cases h
      rfl
    · split at h
      · cases h
        rfl
      · split at h
        · cases h
          rfl
        · cases h
  root_not_regular := by decide

/-- The theorem on `GET /%61.txt`. -/
theorem serve_below_root_srv :
    ∃ root file : CanonicalPath,
      exampleFileSystem.canonical
          (StaticFileHandler.make exampleFileSystem (str "/srv")).documentRoot = some root ∧
        exampleFileSystem.canonical file.text = some file ∧
          exampleFileSystem.readFile file.text = some (str "hi") ∧ Below root file :=
  serve_below_root exampleFileSystem (StaticFileHandler.make exampleFileSystem (str "/srv"))
    (str "/%61.txt")
    ((HttpResponse.okResponse (str "hi") (str "text/plain")).setHeader (str "Connection")
      (str "close"))
    (by rfl) (by rfl)

end HttpServer
