import Mathlib.Data.List.Flatten
import Mathlib.Data.List.Perm.Subperm
import ShaderBuild.Proofs.Builtin.Embedded
import ShaderBuild.Proofs.Builtin.Preparing
import ShaderBuild.Proofs.Metadata.Generated
import ShaderBuild.Proofs.Metadata.RegistryRun

namespace ShaderBuild

section Languages

open Code

def Code.OutputLanguage.fileNames : OutputLanguage → String × Bool → List String
  | cpp, (name, headerOnly) => if headerOnly then [name ++ ".h"] else [name ++ ".h", name ++ ".cpp"]
  | rust, (name, _) => [Rust.fileName name]

def Code.File.title (f : File) : String × Bool := (f.name, f.headerOnly)

theorem emit_names {language : OutputLanguage} {f : File} {es : List EmittedFile}
    (h : language.emit f = .ok es) : es.map (·.name) = language.fileNames f.title := by
  cases language with
  | rust =>
    obtain rfl := Except.ok.inj h
    rfl
  | cpp =>
    unfold OutputLanguage.emit Cpp.emit at h
    dsimp only at h
    split at h
    · cases h
    · cases hh : f.headerOnly <;>
      · simp only [hh, if_true, Bool.false_eq_true, if_false] at h
        obtain rfl := Except.ok.inj h
        simp [OutputLanguage.fileNames, File.title, hh]

theorem emitAll_names {language : OutputLanguage} {fs : List File} {es : List EmittedFile}
    (h : language.emitAll fs = .ok es) :
    es.map (·.name) = (fs.map File.title).flatMap language.fileNames := by
  obtain ⟨ess, hess, h⟩ := (bind_ok_iff ..).1 h
  obtain rfl := (pure_ok_iff ..).1 h
  have hnames : ess.map (·.map (·.name)) = fs.map fun f => language.fileNames f.title :=
    Builtin.map_eq_of_forall₂ ((mapM_ok_iff.1 hess).imp fun _ _ he => emit_names he)
  rw [List.map_flatten, hnames, List.flatMap_map, List.flatMap_def]

end Languages

namespace Builtin

open Code

def embeddingTitles (apis : List Api) : List (String × Bool) :=
  (Names.typesFile, false) :: apis.map (fun a => (Names.apiFile a, false)) ++
    [(Names.dispatcherFile, true)]

def metadataTitles : List (String × Bool) :=
  (Metadata.typesFile, true) :: Bucket.all.map (fun b => (Metadata.kindName b, false)) ++
    [(Metadata.umbrellaFile, true)]

def generatedNames (language : OutputLanguage) (apis : List Api) : List String :=
  (embeddingTitles apis ++ metadataTitles).flatMap language.fileNames

theorem embeddingFiles_titles {vs : List Variant} {apis : List Api} {fs : List File}
    (h : embeddingFiles vs apis = .ok fs) : fs.map File.title = embeddingTitles apis := by
  obtain ⟨files, hfiles, h⟩ := (bind_ok_iff ..).1 h
  obtain rfl := (pure_ok_iff ..).1 h
  have hapis : files.map File.title = apis.map fun a => (Names.apiFile a, false) := by
    refine map_eq_of_forall₂ ((mapM_ok_iff.1 hfiles).imp fun a f hf => ?_)
    obtain ⟨_, -, hf⟩ := (bind_ok_iff ..).1 hf
    obtain rfl := (pure_ok_iff ..).1 hf
    rfl
  simp [hapis, embeddingTitles, File.title, typesFile, dispatcherFile]

theorem registryOf_returns {vs : List Variant} {g g' : Registry}
    (h : Returns (vs.foldlM register g) g') :
    ∃ xs : List Reflection, xs.foldlM Registry.add g = .ok g' := by
  induction vs generalizing g with
  | nil =>
    obtain rfl := Returns.pure h
    exact ⟨[], rfl⟩
  | cons v r ih =>
    rw [List.foldlM_cons] at h
    obtain ⟨g₁, hv, h⟩ := h.bind
    obtain ⟨xs, hxs⟩ := ih h
    unfold register at hv
    split at hv
    · obtain rfl := hv.pure
      exact ⟨xs, hxs⟩
    · obtain ⟨x, -, hv⟩ := hv.bind
      obtain ⟨_, -, hv⟩ := hv.bind
      obtain ⟨g₂, hadd, hv⟩ := hv.bind
      obtain ⟨_, -, hv⟩ := hv.bind
      obtain rfl := hv.pure
      refine ⟨x :: xs, ?_⟩
      rw [List.foldlM_cons, hadd.attempt]
      exact hxs

open Metadata in
theorem metadata_titles {g : Registry} {fs : List File} (h : Metadata.files g = .ok fs)
    (hbucket : ∀ b, (g.table b).bucket = b) : fs.map File.title = metadataTitles := by
  obtain ⟨nested, outs, hg⟩ := files_ok h
  have hl : g.tables.length = outs.length := (tableStructs_ok .nil hg.structs).2.2.length_eq
  have hbuckets : (List.zipWith bucketFile g.tables outs).map File.title =
      Bucket.all.map fun b => (kindName b, false) := by
    refine List.ext_getElem (by simp [← hl, Registry.tables]) fun i _ _ => ?_
    simp [File.title, bucketFile, Registry.tables, hbucket]
  rw [hg.files, List.map_append, List.map_cons, hbuckets]
  rfl

theorem batchFiles_titles {vs : List Variant} {apis : List Api} {fs : List File}
    (h : Returns (batchFiles vs apis) fs) :
    fs.map File.title = embeddingTitles apis ++ metadataTitles := by
  obtain ⟨embedding, hembedding, h⟩ := h.bind
  obtain ⟨g, hg, h⟩ := h.bind
  obtain ⟨_, -, h⟩ := h.bind
  obtain ⟨ms, hms, h⟩ := h.bind
  obtain rfl := h.pure
  obtain ⟨ms', hms', hms⟩ := hms.bind
  obtain ⟨_, -, hms⟩ := hms.bind
  obtain rfl := hms.pure
  obtain ⟨xs, hxs⟩ := registryOf_returns hg
  have hbucket (b : Bucket) : (g.table b).bucket = b :=
    (Registry.run_numbered (Registry.run_ok hxs).1 b).bucket
  rw [List.map_append, embeddingFiles_titles hembedding.attempt,
    metadata_titles hms'.attempt hbucket]

section Places

open FileTree

variable {home : Location} {o : Options} {path : String}

theorem generatedNames_subperm {apis : List Api} (h : apis.Nodup) (language : OutputLanguage) :
    List.Subperm (generatedNames language apis) (generatedNames language Api.all) := by
  have hall : apis ⊆ Api.all := fun a _ => by cases a <;> decide
  obtain ⟨as, hperm, hsub⟩ := h.subperm hall
  refine ⟨generatedNames language as, ?_, ?_⟩
  · exact ((((hperm.map _).cons _).append_right _).append_right _).flatMap_right _
  · exact ((((hsub.map _).cons_cons _).append_right _).append_right _).flatMap _

def codeExtensions : List (Option (List Char)) :=
  [some ['h'], some ['c', 'p', 'p'], some ['r', 's']]

def binaryExtensions : List (Option (List Char)) :=
  [some ['s', 'p', 'v'], some ['d', 'x', 'i', 'l']]

theorem generatedNames_proper {apis : List Api} (h : apis.Nodup) (language : OutputLanguage) :
    (generatedNames language apis).Nodup ∧ ∀ n ∈ generatedNames language apis,
      EntryName n ∧ (Path.splitName n.toList).2 ∈ codeExtensions := by
  have hall : (generatedNames language Api.all).Nodup ∧ ∀ n ∈ generatedNames language Api.all,
      EntryName n ∧ (Path.splitName n.toList).2 ∈ codeExtensions := by
    cases language <;> decide +kernel
  obtain ⟨names, hperm, hsub⟩ := generatedNames_subperm h language
  exact ⟨hperm.nodup_iff.1 (hsub.nodup hall.1),
    fun n hn => hall.2 n (hsub.subset (hperm.mem_iff.2 hn))⟩

def IsGenerated (o : Options) (path : String) : Prop :=
  ∃ n ∈ generatedNames o.language o.apis, path = Path.join o.output n

theorem IsGenerated.extension (home : Location) (h : IsGenerated o path) (ha : o.apis.Nodup) :
    extensionAt (place home path) ∈ codeExtensions := by
  obtain ⟨n, hn, rfl⟩ := h
  obtain ⟨hname, hext⟩ := (generatedNames_proper ha o.language).2 n hn
  rwa [extensionAt_join hname]

theorem marker_extension : extensionAt (place home (markerPath o.output)) =
    some ['u', 'p', 't', 'o', 'd', 'a', 't', 'e'] := by
  rw [markerPath, extensionAt_join (by decide)]
  decide

theorem IsOutput.extension (home : Location) {jobs : List Job} {directory : String}
    (h : IsOutput jobs path) (hj : ∀ j ∈ jobs, j.PlannedIn directory) :
    extensionAt (place home path) ∈ binaryExtensions := by
  obtain ⟨j, hmem, d, hd, rfl⟩ := h
  obtain ⟨x, hx⟩ := Path.exists_join directory j.binaryName
  have hpath : d.output.toList = (x ++ j.shader.stem.toList ++ '_' :: j.api.name.toList) ++
      '.' :: j.api.binaryExtension.toList := by
    rw [(hj j hmem).output d hd, hx, (hj j hmem).name, Shader.binaryName_eq]
    simp
  have hplain (a : Api) : Path.separator ∉ '_' :: a.name.toList ∧
      Path.separator ∉ a.binaryExtension.toList ∧ '.' ∉ a.binaryExtension.toList ∧
      a.binaryExtension.toList ≠ [] := by
    cases a <;> decide
  obtain ⟨hapi, hsep, hdot, hne⟩ := hplain j.api
  rw [(extension_of_suffix _ hpath hsep hdot hne).2, Path.lastPart_append_plain _ hapi,
    if_neg (by simp)]
  cases j.api <;> decide

end Places

end Builtin

end ShaderBuild
