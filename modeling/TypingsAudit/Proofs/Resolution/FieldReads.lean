import TypingsAudit.Proofs.Resolution.Answers

set_option autoImplicit false

/-! # The fields that an answer depends on

Each algorithm reads some fields of the manifest and no others, and what it does not read cannot
change its answers. `Resolver.withManifest` puts another manifest over the same files; each lemma
says for one step of a resolution in which fields the two manifests have to agree for it to do the
same. A step that reads no field at all does the same by definition.

There is one detour. The package root is a directory, and its manifest is the one of the package, so
the fields `main` and `types` are also read where a path turns out to be the root. -/

namespace TypingsAudit

/-- The manifests agree in the older fields that the algorithm reads in the mode. -/
structure Manifest.AgreesFor (kind : ResolutionKind) (mode : ResolutionMode) (a b : Manifest) :
    Prop where
  main : a.main = b.main
  types : mode = .types → a.types = b.types
  typesVersions : mode = .types → a.typesVersions = b.typesVersions
  module : kind = .bundler → mode = .runtime → a.module = b.module

namespace Resolver

/-- The resolver with another manifest and other conditions over the same files, which are loaded in
    the same formats. -/
def withManifest (r : Resolver) (manifest : Manifest) (conditions : List String) : Resolver :=
  { r with manifest, extraConditions := conditions }

variable {r : Resolver} {m : Manifest} {conditions : List String} {kind : ResolutionKind}
  {mode : ResolutionMode}

/-- The type of a package is all of its manifest that the formats of its files depend on. -/
theorem ofPackage_eq_withManifest (tree : FileTree) {manifest manifest' : Manifest}
    (htype : manifest'.type = manifest.type) (conditions conditions' : List String) :
    ofPackage tree manifest' conditions'
      = (ofPackage tree manifest conditions).withManifest manifest' conditions' := by
  simp only [ofPackage, withManifest, htype]

/-! ## Probing -/

/-- Every directory but the root has a manifest of its own. -/
theorem manifestOf_withManifest {dir : String} (h : dir ≠ "") :
    (r.withManifest m conditions).manifestOf dir = r.manifestOf dir := by
  unfold manifestOf
  rw [if_neg h, if_neg h]
  rfl

theorem manifestOf_root : r.manifestOf "" = some r.manifest :=
  if_pos rfl

theorem declarationOfDirectory_withManifest {dir : String}
    (hmain : dir = "" → m.main = r.manifest.main)
    (htypes : dir = "" → m.types = r.manifest.types) :
    (r.withManifest m conditions).declarationOfDirectory dir = r.declarationOfDirectory dir := by
  unfold declarationOfDirectory
  by_cases hroot : dir = ""
  · subst hroot
    simp only [manifestOf_root, Option.bind_eq_bind, Option.bind_some, withManifest, hmain, htypes]
    rfl
  · rw [manifestOf_withManifest hroot]
    rfl

theorem scriptOfDirectory_withManifest {dir : String} (hmain : dir = "" → m.main = r.manifest.main)
    (endings : List String) :
    (r.withManifest m conditions).scriptOfDirectory endings dir
      = r.scriptOfDirectory endings dir := by
  unfold scriptOfDirectory
  by_cases hroot : dir = ""
  · subst hroot
    simp only [manifestOf_root, Option.bind_eq_bind, Option.bind_some, withManifest, hmain]
    rfl
  · rw [manifestOf_withManifest hroot]
    rfl

theorem declarationsAt_withManifest {path : String} (hmain : path = "" → m.main = r.manifest.main)
    (htypes : path = "" → m.types = r.manifest.types) :
    (r.withManifest m conditions).declarationsAt path = r.declarationsAt path := by
  unfold declarationsAt
  rw [declarationOfDirectory_withManifest hmain htypes]
  rfl

theorem scriptAt_withManifest {path : String} (hmain : path = "" → m.main = r.manifest.main)
    (endings : List String) :
    (r.withManifest m conditions).scriptAt endings path = r.scriptAt endings path := by
  unfold scriptAt
  rw [scriptOfDirectory_withManifest hmain]
  rfl

theorem atPath_withManifest (hmain : m.main = r.manifest.main)
    (htypes : mode = .types → m.types = r.manifest.types) (path : String) :
    (r.withManifest m conditions).atPath kind path mode = r.atPath kind path mode := by
  unfold atPath
  cases mode with
  | types =>
      simp only [declarationsAt_withManifest (fun _ => hmain) (fun _ => htypes rfl)]
      rfl
  | runtime =>
      simp only [scriptAt_withManifest (fun _ => hmain)]
      rfl

/-! ## The older fields -/

theorem mappedPaths_withManifest (h : m.typesVersions = r.manifest.typesVersions) (path : String) :
    (r.withManifest m conditions).mappedPaths path = r.mappedPaths path := by
  unfold mappedPaths
  rw [← h]
  rfl

theorem mappedDeclarations_withManifest (hmain : m.main = r.manifest.main)
    (htypes : m.types = r.manifest.types) (hversions : m.typesVersions = r.manifest.typesVersions) :
    (r.withManifest m conditions).mappedDeclarations = r.mappedDeclarations := by
  funext path
  have hprobe : (r.withManifest m conditions).declarationsAt = r.declarationsAt :=
    funext fun place => declarationsAt_withManifest (fun _ => hmain) (fun _ => htypes)
  rw [mappedDeclarations, mappedPaths_withManifest hversions, hprobe]
  rfl

theorem legacyRoot_withManifest (h : m.AgreesFor kind mode r.manifest) :
    (r.withManifest m conditions).legacyRoot kind mode = r.legacyRoot kind mode := by
  have hmain : (r.withManifest m conditions).manifest.main = r.manifest.main := h.main
  unfold legacyRoot
  rw [hmain]
  cases mode with
  | types =>
      have htypes : (r.withManifest m conditions).manifest.types = r.manifest.types := h.types rfl
      have hprobe : (r.withManifest m conditions).declarationsAt = r.declarationsAt :=
        funext fun place => declarationsAt_withManifest (fun _ => h.main) (fun _ => h.types rfl)
      simp only [htypes, hprobe,
        mappedDeclarations_withManifest h.main (h.types rfl) (h.typesVersions rfl)]
      rfl
  | runtime =>
      have hprobe : ∀ endings,
          (r.withManifest m conditions).scriptAt endings = r.scriptAt endings := fun endings =>
        funext fun place => scriptAt_withManifest (fun _ => h.main) endings
      have hmodule : (if kind = .bundler then
            fieldPath (r.withManifest m conditions).manifest.module else none)
          = if kind = .bundler then fieldPath r.manifest.module else none := by
        split
        · next hbundler => exact congrArg fieldPath (h.module hbundler rfl)
        · rfl
      simp only [hprobe, hmodule]
      rfl

theorem legacy_withManifest (h : m.AgreesFor kind mode r.manifest) (subpath : String) :
    (r.withManifest m conditions).legacy kind subpath mode = r.legacy kind subpath mode := by
  have hpath : ∀ path, (r.withManifest m conditions).atPath kind path mode
      = r.atPath kind path mode := atPath_withManifest h.main h.types
  unfold legacy
  rw [legacyRoot_withManifest h]
  cases mode with
  | types => simp only [hpath, mappedPaths_withManifest (h.typesVersions rfl)]
  | runtime => simp only [hpath]

/-! ## The `exports` field -/

/-- The field `main` comes into play only when the field `types` names the package root, whose
    manifest is read in turn. -/
theorem rootTypes_withManifest {subpath : String}
    (htypes : subpath = Exports.rootSubpath → m.types = r.manifest.types)
    (hmain : subpath = Exports.rootSubpath → fieldPath r.manifest.types = some "" →
      m.main = r.manifest.main) :
    (r.withManifest m conditions).rootTypes subpath = r.rootTypes subpath := by
  unfold rootTypes
  by_cases hroot : subpath = Exports.rootSubpath
  · have hfield : (r.withManifest m conditions).manifest.types = r.manifest.types := htypes hroot
    rw [if_pos hroot, if_pos hroot, hfield]
    cases hpath : fieldPath r.manifest.types with
    | none => rfl
    | some path =>
        -- Below the root the probing never comes back to the manifest of the package.
        refine declarationsAt_withManifest (fun hempty => hmain hroot ?_) fun _ => htypes hroot
        rw [hpath, hempty]
  · rw [if_neg hroot, if_neg hroot]

theorem nodeExports_withManifest {subpath : String}
    (htypes : mode = .types → subpath = Exports.rootSubpath → m.types = r.manifest.types)
    (hmain : mode = .types → subpath = Exports.rootSubpath → fieldPath r.manifest.types = some "" →
      m.main = r.manifest.main) (exports : Exports) (active : ConditionSet) :
    (r.withManifest m conditions).nodeExports exports subpath mode active
      = r.nodeExports exports subpath mode active := by
  have htargets : ∀ targets, (r.withManifest m conditions).nodeTargets targets subpath mode
      = r.nodeTargets targets subpath mode := fun targets => by
    cases mode with
    | runtime => rfl
    | types =>
        unfold nodeTargets
        rw [rootTypes_withManifest (htypes rfl) (hmain rfl)]
        rfl
  unfold nodeExports
  simp only [htargets]

/-- The targets of a bundler are not looked at with any field. -/
theorem bundlerTargets_withManifest (targets : List String) :
    (r.withManifest m conditions).bundlerTargets targets mode = r.bundlerTargets targets mode :=
  rfl

/-! ## Subpaths and questions -/

/-- `node10` leaves every subpath to the older fields, whatever conditions are active. -/
theorem atSubpath_node10 (subpath : String) (active : ConditionSet) :
    r.atSubpath .node10 subpath mode active = r.legacy .node10 subpath mode :=
  rfl

theorem atSubpath_withManifest (hexports : m.exports = r.manifest.exports)
    (h : m.AgreesFor kind mode r.manifest) (subpath : String) (active : ConditionSet) :
    (r.withManifest m conditions).atSubpath kind subpath mode active
      = r.atSubpath kind subpath mode active := by
  have hlegacy : (r.withManifest m conditions).legacy kind subpath mode
      = r.legacy kind subpath mode := legacy_withManifest h subpath
  have hnode : ∀ exports, (r.withManifest m conditions).nodeExports exports subpath mode active
      = r.nodeExports exports subpath mode active := fun exports =>
    nodeExports_withManifest (fun htypes _ => h.types htypes) (fun _ _ _ => h.main) exports active
  have hfield : (r.withManifest m conditions).manifest.exports = r.manifest.exports := hexports
  unfold atSubpath
  rw [hfield]
  split
  · exact hlegacy
  · exact hlegacy
  · exact hnode _
  · exact hnode _
  · unfold bundlerExports
    rw [hlegacy]
    rfl

/-- A question is about the same subpath to packages of one name, under the same conditions. -/
theorem answer_of_subpath?_withManifest (hname : m.name = r.manifest.name) {question : Question}
    {subpath : String} (h : question.subpath? r = some subpath) :
    (r.withManifest m r.extraConditions).answer kind mode question
      = (r.withManifest m r.extraConditions).atSubpath kind subpath mode
          (question.active r kind mode) := by
  have hsame : question.subpath? (r.withManifest m r.extraConditions) = question.subpath? r := by
    cases question with
    | entry subpath => rfl
    | specifier text importer active =>
        simp only [Question.subpath?, subpathOf?, withManifest, hname]
  rw [answer_of_subpath? (hsame.trans h)]
  cases question <;> rfl

/-- **For a subpath that `exports` covers, Node.js reads no other field**, but `types` for the
    declarations of the package root. -/
theorem answer_node16_withManifest (r : Resolver) (m : Manifest) {exports : Exports}
    {question : Question} {subpath : String}
    (hkind : kind = .node16Cjs ∨ kind = .node16Esm) (hname : m.name = r.manifest.name)
    (hexports : r.manifest.exports = some exports) (hsame : m.exports = r.manifest.exports)
    (hsubpath : question.subpath? r = some subpath)
    (htypes : mode = .types → subpath = Exports.rootSubpath → m.types = r.manifest.types)
    (hmain : mode = .types → subpath = Exports.rootSubpath → fieldPath r.manifest.types = some "" →
      m.main = r.manifest.main) :
    (r.withManifest m r.extraConditions).answer kind mode question
      = r.answer kind mode question := by
  have hfield : (r.withManifest m r.extraConditions).manifest.exports = some exports :=
    hsame.trans hexports
  rw [answer_of_subpath?_withManifest hname hsubpath, answer_of_subpath? hsubpath]
  unfold atSubpath
  rw [hfield, hexports]
  rcases hkind with rfl | rfl
  · exact nodeExports_withManifest htypes hmain exports _
  · exact nodeExports_withManifest htypes hmain exports _

/-- The field `types` can lead `node16-esm` to the package root, and from there to `main`. -/
example :
    let manifest : Manifest :=
      ⟨none, none, none, some "main.js", none, some "./", some (.target "./index.js"), none⟩
    let tree := FileTree.empty.insert "main.d.ts" []
    (ofPackage tree manifest []).answer .node16Esm .types (.entry ".")
        = .found ⟨"main.d.ts", .cjs, true, false⟩ ∧
      (ofPackage tree { manifest with main := none } []).answer .node16Esm .types (.entry ".")
        = .notFound .notADeclaration := by
  decide +kernel

/-- **For a subpath with targets a bundler reads no other field.** -/
theorem answer_bundler_withManifest (r : Resolver) (m : Manifest) {exports : Exports}
    {question : Question} {subpath : String} {targets : List String}
    (hname : m.name = r.manifest.name)
    (hexports : r.manifest.exports = some exports) (hsame : m.exports = r.manifest.exports)
    (hsubpath : question.subpath? r = some subpath)
    (hlookup : exports.lookup subpath (question.active r .bundler mode) = .candidates targets) :
    (r.withManifest m r.extraConditions).answer .bundler mode question
      = r.answer .bundler mode question := by
  have hfield : (r.withManifest m r.extraConditions).manifest.exports = some exports :=
    hsame.trans hexports
  rw [answer_of_subpath?_withManifest hname hsubpath, answer_of_subpath? hsubpath]
  unfold atSubpath bundlerExports
  rw [hfield, hexports]
  simp only [hlookup, bundlerTargets_withManifest]

theorem answer_withManifest (r : Resolver) (m : Manifest) (hname : m.name = r.manifest.name)
    (hexports : m.exports = r.manifest.exports) (h : m.AgreesFor kind mode r.manifest)
    {question : Question} :
    (r.withManifest m r.extraConditions).answer kind mode question
      = r.answer kind mode question := by
  refine answer_rel hname (fun _ => rfl) (atPath_withManifest h.main h.types) fun subpath _ => ?_
  have hactive : question.active (r.withManifest m r.extraConditions) kind mode
      = question.active r kind mode := by
    cases question <;> rfl
  rw [hactive]
  exact atSubpath_withManifest hexports h subpath _

/-- No condition is active for `node10`, since it evaluates no field that has conditions. -/
theorem answer_node10_under (active : ConditionSet) (question : Question) :
    r.answer .node10 mode (question.under active) = r.answer .node10 mode question := by
  cases question with
  | entry subpath => rfl
  | specifier text importer other => simp only [answer, Question.under, resolve, atSubpath_node10]

theorem answer_node10_withManifest (r : Resolver) (m : Manifest) (hname : m.name = r.manifest.name)
    (h : m.AgreesFor .node10 mode r.manifest) {question : Question} :
    (r.withManifest m conditions).answer .node10 mode question
      = r.answer .node10 mode question := by
  refine answer_rel hname (fun _ => rfl) (atPath_withManifest h.main h.types) fun subpath _ => ?_
  rw [atSubpath_node10, atSubpath_node10]
  exact legacy_withManifest h subpath

/-- **An answer depends on the fields that its algorithm reads and on no others.** Packages that
    differ only in other fields, over the same files, get the same answer:
    `node10` does not read `exports` and knows no conditions; at runtime nothing reads `types` or
    `typesVersions`; for a relative specifier `exports`, `typesVersions`, `module`, the name and the
    conditions do not matter; `module` matters only to a bundler at runtime. For a subpath of a
    package with `exports`, the Node.js algorithms read neither `module` nor `typesVersions`, nor
    `types` but for the declarations of the package root, nor `main` but where these are looked for
    in the package root itself; and a bundler that has targets reads nothing else. -/
theorem answers_depend_on_fields_read (tree : FileTree) (manifest : Manifest)
    (conditions : List String) :
    let r := ofPackage tree manifest conditions
    (∀ exports conditions' active mode question,
      (ofPackage tree { manifest with exports } conditions').answer .node10 mode
        (question.under active) = r.answer .node10 mode question) ∧
    (∀ types typesVersions kind question,
      (ofPackage tree { manifest with types, typesVersions } conditions).answer kind .runtime
        question = r.answer kind .runtime question) ∧
    (∀ exports typesVersions module name conditions' active kind mode question,
      question.IsRelative →
      (ofPackage tree { manifest with exports, typesVersions, module, name } conditions').answer
        kind mode (question.under active) = r.answer kind mode question) ∧
    (∀ module kind mode question, ¬ (kind = .bundler ∧ mode = .runtime) →
      (ofPackage tree { manifest with module } conditions).answer kind mode question
        = r.answer kind mode question) ∧
    (∀ kind mode question subpath, kind = .node16Cjs ∨ kind = .node16Esm →
      manifest.exports.isSome = true → question.subpath? r = some subpath →
      (∀ module typesVersions,
        (ofPackage tree { manifest with module, typesVersions } conditions).answer kind mode
          question = r.answer kind mode question) ∧
      (∀ main, ¬ (mode = .types ∧ subpath = Exports.rootSubpath ∧
          manifest.types.bind Path.normalize? = some "") →
        (ofPackage tree { manifest with main } conditions).answer kind mode question
          = r.answer kind mode question) ∧
      (∀ types, ¬ (mode = .types ∧ subpath = Exports.rootSubpath) →
        (ofPackage tree { manifest with types } conditions).answer kind mode question
          = r.answer kind mode question)) ∧
    (∀ exports mode question subpath targets, manifest.exports = some exports →
      question.subpath? r = some subpath →
      exports.lookup subpath (question.active r .bundler mode) = .candidates targets →
      ∀ main module types typesVersions,
        (ofPackage tree { manifest with main, module, types, typesVersions } conditions).answer
          .bundler mode question = r.answer .bundler mode question) := by
  intro r
  have hwith : ∀ (m : Manifest) (c : List String), m.type = manifest.type →
      ofPackage tree m c = r.withManifest m c := fun m c htype =>
    ofPackage_eq_withManifest tree htype conditions c
  refine ⟨fun exports conditions' active mode question => ?node10,
    fun types typesVersions kind question => ?runtime,
    fun exports typesVersions module name conditions' active kind mode question hrelative =>
      ?relative,
    fun module kind mode question hother => ?module,
    fun kind mode question subpath hkind hexports hsubpath => ?node16,
    fun exports mode question subpath targets hexports hsubpath hlookup main module types
      typesVersions => ?bundler⟩
  case node10 =>
    rw [answer_node10_under, hwith { manifest with exports } conditions' rfl]
    exact r.answer_node10_withManifest { manifest with exports } rfl
      ⟨rfl, fun _ => rfl, fun _ => rfl, fun _ _ => rfl⟩
  case runtime =>
    rw [hwith { manifest with types, typesVersions } conditions rfl]
    exact r.answer_withManifest { manifest with types, typesVersions } rfl rfl
      ⟨rfl, by nofun, by nofun, fun _ _ => rfl⟩
  case relative =>
    rw [hwith { manifest with exports, typesVersions, module, name } conditions' rfl]
    have hpath : ∀ path, r.atPath kind path mode = (r.withManifest
        { manifest with exports, typesVersions, module, name } conditions').atPath kind path mode :=
      fun path => (atPath_withManifest (by rfl) (fun _ => by rfl) path).symm
    exact (answer_rel_of_isRelative (fun _ => rfl) hpath hrelative active).symm
  case module =>
    rw [hwith { manifest with module } conditions rfl]
    exact r.answer_withManifest { manifest with module } rfl rfl
      ⟨rfl, fun _ => rfl, fun _ => rfl, fun hkind hmode => absurd ⟨hkind, hmode⟩ hother⟩
  case node16 =>
    obtain ⟨field, hfield⟩ := Option.isSome_iff_exists.1 hexports
    refine ⟨fun module typesVersions => ?_, fun main hmain => ?_, fun types htypes => ?_⟩
    · rw [hwith { manifest with module, typesVersions } conditions rfl]
      exact r.answer_node16_withManifest { manifest with module, typesVersions } hkind rfl hfield
        rfl hsubpath (fun _ _ => rfl) (fun _ _ _ => rfl)
    · rw [hwith { manifest with main } conditions rfl]
      exact r.answer_node16_withManifest { manifest with main } hkind rfl hfield rfl hsubpath
        (fun _ _ => rfl) (fun hmode hroot hempty => absurd ⟨hmode, hroot, hempty⟩ hmain)
    · rw [hwith { manifest with types } conditions rfl]
      exact r.answer_node16_withManifest { manifest with types } hkind rfl hfield rfl hsubpath
        (fun hmode hroot => absurd ⟨hmode, hroot⟩ htypes) (fun _ _ _ => rfl)
  case bundler =>
    rw [hwith { manifest with main, module, types, typesVersions } conditions rfl]
    exact r.answer_bundler_withManifest { manifest with main, module, types, typesVersions } rfl
      hexports rfl hsubpath hlookup

/-- A package with `exports` whose older fields say something else. -/
theorem exported_root_depends_on_fields_read :
    let exports := Exports.target "./index.js"
    let manifest : Manifest :=
      ⟨some "pkg", none, none, some "main.js", none, some "./lib.d.ts", some exports, none⟩
    let tree := ((FileTree.empty.insert "index.js" []).insert "main.js" []).insert "lib.d.ts" []
    let r := ofPackage tree manifest []
    let root := Question.entry "."
    let relative := Question.specifier "./main" (some "index.js") (ConditionSet.ofNames [])
    let worker := ConditionSet.ofNames ["worker"]
    let main : Resolved := ⟨"main.js", .cjs, false, false⟩
    let index : Resolved := ⟨"index.js", .cjs, false, false⟩
    let declaration : Resolved := ⟨"lib.d.ts", .cjs, true, false⟩
    (ofPackage tree { manifest with exports := none } ["worker"]).answer .node10 .runtime root
      = .found main ∧
    (relative.IsRelative ∧
      (ofPackage tree { manifest with exports := none, name := none } ["worker"]).answer .node10
        .runtime (relative.under worker) = .found main) ∧
    (manifest.exports.isSome = true ∧ root.subpath? r = some "." ∧
      ¬ (ResolutionMode.types = .types ∧ "." = Exports.rootSubpath ∧
        manifest.types.bind Path.normalize? = some "") ∧
      (ofPackage tree { manifest with main := none } []).answer .node16Esm .types root
        = .found declaration) ∧
    (exports.lookup "." (root.active r .bundler .runtime) = .candidates ["./index.js"] ∧
      (ofPackage tree { manifest with main := none, module := some "main.js", types := none }
        []).answer .bundler .runtime root = .found index) := by
  intro exports manifest tree r root relative worker main index declaration
  obtain ⟨hnode10, -, hrelative, -, hnode16, hbundler⟩ :=
    answers_depend_on_fields_read tree manifest []
  have hmain : r.answer .node10 .runtime root = .found main := by decide +kernel
  have hprobed : r.answer .node10 .runtime relative = .found main := by decide +kernel
  have hdeclared : r.answer .node16Esm .types root = .found declaration := by decide +kernel
  have hindex : r.answer .bundler .runtime root = .found index := by decide +kernel
  have hbelow : ¬ (ResolutionMode.types = .types ∧ "." = Exports.rootSubpath ∧
      manifest.types.bind Path.normalize? = some "") := by decide +kernel
  have hlookup : exports.lookup "." (root.active r .bundler .runtime)
      = .candidates ["./index.js"] := by decide +kernel
  refine ⟨?_, ⟨rfl, ?_⟩, ⟨rfl, rfl, hbelow, ?_⟩, hlookup, ?_⟩
  · exact (hnode10 none ["worker"] worker .runtime root).trans hmain
  · exact (hrelative none none none none ["worker"] worker .node10 .runtime relative rfl).trans
      hprobed
  · exact ((hnode16 .node16Esm .types root "." (Or.inr rfl) rfl rfl).2.1 none hbelow).trans
      hdeclared
  · exact (hbundler exports .runtime root "." _ rfl rfl hlookup none (some "main.js") none
      none).trans hindex

end Resolver

end TypingsAudit
