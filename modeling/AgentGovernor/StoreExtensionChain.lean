import AgentGovernor.StoreAuthority
import AgentGovernor.TextFields

/-! Extensions form a chain. Each is committed once under the key of its actor and answers every retry;
the versions of an envelope count its extensions; and the items of a dimension continue one another from
its grant on. -/

namespace AgentGovernor

open Ledger Table Transaction Engine Sample List

variable {held : List Lock} {s t : Store} {dep : Deployment} {request : Request} {link : Option ID}

/-! ### The content of an extension -/

/-- What a retry has to repeat. -/
def ResourceExtension.content (x : ResourceExtension) :
    ID × String × String × List ResourceExtensionAmount × Int :=
  (x.runID, x.reasonCode, x.approvalReference, x.additions, x.deadlineExtensionSeconds)

/-- A JSON string after its opening quote. -/
def stringText (text : String) : List Char := text.toList ++ ['"']

/-- The JSON object of an addition, by its parts. -/
def additionText (p : String × String × Int × Nat) : List Char :=
  ("\x7b\"Name\":".toList ++ ['"']) ++ (stringText p.1 ++ ((",\"Unit\":".toList ++ ['"']) ++
    (stringText p.2.1 ++ (",\"Coefficient\":".toList ++ (((toString p.2.2.1).toList ++ [',']) ++
      ("\"Scale\":".toList ++ ((toString p.2.2.2).toList ++ ['\x7d'])))))))

def ResourceExtensionAmount.parts (a : ResourceExtensionAmount) : String × String × Int × Nat :=
  (a.name, a.quantity.unit, a.quantity.amount.coefficient, a.quantity.amount.scale)

/-- The JSON object of an extension's content. -/
def contentText (p : ID × String × String × List ResourceExtensionAmount × Int) : List Char :=
  ("\x7b\"Run\":".toList ++ ['"']) ++ (stringText p.1.string ++ ((",\"Reason\":".toList ++ ['"']) ++
    (stringText p.2.1 ++ ((",\"Approval\":".toList ++ ['"']) ++ (stringText p.2.2.1 ++
      (",\"Additions\":[".toList ++
        (([','].intercalate (p.2.2.2.1.map fun a => additionText a.parts) ++ [']']) ++
          (",\"Deadline\":".toList ++ ((toString p.2.2.2.2).toList ++ ['\x7d'])))))))))

theorem quoted_toList (text : String) : (quoted text).toList = ['"'] ++ stringText text := by
  simp [quoted, stringText]

theorem extensionMaterial_toList (x : ResourceExtension) :
    (extensionMaterial x).toList = contentText x.content := by
  -- The marks that end a number or the list are the first ones of the next literal.
  have hscale : ",\"Scale\":".toList = [','] ++ "\"Scale\":".toList := rfl
  have hdeadline : "],\"Deadline\":".toList = [']'] ++ ",\"Deadline\":".toList := rfl
  have hbrace : "\x7d".toList = ['\x7d'] := rfl
  have hcomma : ",".toList = [','] := rfl
  have haddition : ∀ a : ResourceExtensionAmount,
      ("\x7b\"Name\":" ++ quoted a.name ++ ",\"Unit\":" ++ quoted a.quantity.unit ++ ",\"Coefficient\":"
        ++ toString a.quantity.amount.coefficient ++ ",\"Scale\":" ++ toString a.quantity.amount.scale
        ++ "\x7d").toList = additionText a.parts := by
    intro a
    unfold additionText ResourceExtensionAmount.parts
    simp only [String.toList_append, quoted_toList, append_assoc, hscale, hbrace]
  unfold contentText ResourceExtension.content extensionMaterial
  simp only [String.toList_append, String.toList_intercalate, List.map_map, quoted_toList,
    append_assoc, hdeadline, hbrace, hcomma, Function.comp_def, ← haddition]

theorem not_mem_of_matchesPattern {first rest : Char → Bool} {bound : Nat} {text : String} {c : Char}
    (hfirst : first c = false) (hrest : rest c = false)
    (h : matchesPattern first rest bound text = true) : c ∉ text.toList := by
  unfold matchesPattern at h
  cases htext : text.toList with
  | nil => exact not_mem_nil
  | cons x xs =>
    simp only [htext, Bool.and_eq_true, List.all_eq_true] at h
    intro hmem
    rcases mem_cons.mp hmem with rfl | hmem
    · rw [hfirst] at h
      exact absurd h.1.1 (by decide)
    · have hbad := h.1.2 c hmem
      rw [hrest] at hbad
      cases hbad

/-- The text has no quote to escape. -/
def Plain (text : String) : Prop := '"' ∉ text.toList

theorem readable_stringText : Text.Readable Plain stringText :=
  Text.Readable.ended (fun _ h => h) fun _ _ _ _ heq => String.toList_inj.mp heq

theorem readable_additionText :
    Text.Readable (fun p => Plain p.1 ∧ Plain p.2.1 ∧ True ∧ True) additionText := by
  have hnumbers := (Text.Readable.int (c := ',') (by decide) (by decide)).pair
    ((Text.Readable.nat (c := '\x7d') (by decide)).after "\"Scale\":".toList)
  have hunit := readable_stringText.pair (hnumbers.after ",\"Coefficient\":".toList)
  have hname := readable_stringText.pair (hunit.after (",\"Unit\":".toList ++ ['"']))
  exact hname.after ("\x7b\"Name\":".toList ++ ['"'])

theorem ResourceExtensionAmount.parts_injective : Function.Injective ResourceExtensionAmount.parts := by
  rintro ⟨name, ⟨⟨coefficient, scale, _⟩, unit, _⟩⟩ ⟨name', ⟨⟨coefficient', scale', _⟩, unit', _⟩⟩ heq
  simp only [ResourceExtensionAmount.parts, Prod.mk.injEq] at heq
  obtain ⟨rfl, rfl, rfl, rfl⟩ := heq
  rfl

/-- The texts in the content of an extension need no escapes. -/
structure PlainContent (p : ID × String × String × List ResourceExtensionAmount × Int) : Prop where
  reason : Plain p.2.1
  approval : Plain p.2.2.1
  additions : ∀ a ∈ p.2.2.2.1, Plain a.name ∧ Plain a.quantity.unit

theorem contentText_injective {p q : ID × String × String × List ResourceExtensionAmount × Int}
    (hp : PlainContent p) (hq : PlainContent q) (h : contentText p = contentText q) : p = q := by
  have hadditions := (readable_additionText.comap ResourceExtensionAmount.parts
    ResourceExtensionAmount.parts_injective).list ',' (show '\x7b' ≠ ']' by decide) (by decide)
    fun a _ => ⟨_, rfl⟩
  have hseconds := (Text.Readable.int (c := '\x7d') (by decide) (by decide)).after ",\"Deadline\":".toList
  have hlist := (hadditions.pair hseconds).after ",\"Additions\":[".toList
  have happroval := (readable_stringText.pair hlist).after (",\"Approval\":".toList ++ ['"'])
  have hreason := (readable_stringText.pair happroval).after (",\"Reason\":".toList ++ ['"'])
  have hid : Text.Readable (fun _ : ID => True) fun id => stringText id.string :=
    .of_length (n := 37) (fun id _ => by simp [stringText, ID.string_toList_length])
      fun _ _ _ _ heq => ID.string_injective (String.toList_inj.mp (append_cancel_right heq))
  have hrun := hid.pair hreason
  refine (hrun.after ("\x7b\"Run\":".toList ++ ['"'])).injective ?_ ?_ h
  · exact ⟨trivial, hp.reason, hp.approval, fun a ha => ⟨(hp.additions a ha).1, (hp.additions a ha).2,
      trivial, trivial⟩, trivial⟩
  · exact ⟨trivial, hq.reason, hq.approval, fun a ha => ⟨(hq.additions a ha).1, (hq.additions a ha).2,
      trivial, trivial⟩, trivial⟩

theorem plain_of_unit {unit : String} (h : validUnit unit = true ∨ unit = "") : Plain unit := by
  rcases h with h | rfl
  · exact not_mem_of_matchesPattern (by decide) (by decide) h
  · exact not_mem_nil

variable {candidate : ResourceExtension}

theorem validateResourceExtension_plain {result : ResourceExtension}
    (h : validateResourceExtension candidate = .ok result) : PlainContent result.content := by
  unfold validateResourceExtension at h
  dsimp only at h
  split_ifs at h with hids
  split at h
  · cases h
  · split_ifs at h with hbad
    cases h
    simp only [not_or, Bool.not_eq_true, Bool.not_eq_false', List.any_eq_false, Bool.or_eq_true,
      not_lt] at hids hbad
    obtain ⟨_, _, _, _, _, _, hreason, happroval, _⟩ := hids
    refine ⟨not_mem_of_matchesPattern (by decide) (by decide) hreason,
      not_mem_of_matchesPattern (by decide) (by decide) happroval, fun a ha => ⟨?_, ?_⟩⟩
    · have hname := (hbad.2.2.1 a ((perm_insertionSort _ _).mem_iff.mp ha)).1
      exact not_mem_of_matchesPattern (by decide) (by decide) hname
    · exact plain_of_unit a.quantity.unit_canonical

variable {extension : ResourceExtension}

theorem resourceExtensionDigest_congr {extension' : ResourceExtension}
    (h : extension.content = extension'.content) :
    resourceExtensionDigest dep extension = resourceExtensionDigest dep extension' := by
  have htext : (extensionMaterial extension).toList = (extensionMaterial extension').toList := by
    rw [extensionMaterial_toList, extensionMaterial_toList, h]
  rw [resourceExtensionDigest, resourceExtensionDigest, String.toList_inj.mp htext]

/-- Without collisions the digest tells the contents of extensions apart. -/
theorem content_of_resourceExtensionDigest (hsha : Function.Injective dep.sha256)
    {candidate' extension' : ResourceExtension}
    (h : validateResourceExtension candidate = .ok extension)
    (h' : validateResourceExtension candidate' = .ok extension')
    (heq : resourceExtensionDigest dep extension = resourceExtensionDigest dep extension') :
    extension.content = extension'.content := by
  have htext := congrArg String.toList (Deployment.digest_injective hsha heq)
  rw [extensionMaterial_toList, extensionMaterial_toList] at htext
  exact contentText_injective (validateResourceExtension_plain h) (validateResourceExtension_plain h')
    htext

/-! ### The chain -/

/-- The extensions of an envelope, in the order of its versions. -/
def extensionsOf (s : Store) (e : ID) : List Extension :=
  (s.extensions.rows.filter (·.envelopeID = e)).insertionSort fun x y =>
    x.newEnvelopeVersion ≤ y.newEnvelopeVersion

/-- The items of one dimension in a list of extensions. -/
def itemsIn (extensions : List Extension) (d : ID) : List ExtensionItem :=
  extensions.flatMap fun x => x.items.filter (·.dimensionID = d)

/-- Each item adds to what the one before it has reached, the first one to the given value. -/
def ChainFrom : Int → List ExtensionItem → Prop
  | _, [] => True
  | value, i :: rest => i.priorGrantedValue = value ∧
      i.newGrantedValue = i.priorGrantedValue + i.addedValue ∧ ChainFrom i.newGrantedValue rest

theorem ChainFrom.snoc {items : List ExtensionItem} {value : Int} (h : ChainFrom value items)
    {i : ExtensionItem} (hprior : i.priorGrantedValue = value + (items.map (·.addedValue)).sum)
    (hnew : i.newGrantedValue = i.priorGrantedValue + i.addedValue) : ChainFrom value (items ++ [i]) := by
  induction items generalizing value with
  | nil => exact ⟨by simpa using hprior, hnew, trivial⟩
  | cons j items ih =>
    obtain ⟨hj, hj', hrest⟩ := h
    refine ⟨hj, hj', ih hrest ?_⟩
    rw [hprior, hj', hj, map_cons, sum_cons]
    omega

/-- The shape of the extensions of a tenant. -/
structure Chained (s : Store) : Prop where
  version : ∀ id e, s.envelopes.get id = some e →
    e.version = 1 + (s.extensions.rows.filter (·.envelopeID = id)).length
  reached : ∀ x ∈ s.extensions.rows, ∃ e, s.envelopes.get x.envelopeID = some e ∧
    x.newEnvelopeVersion ≤ e.version
  ordered : ∀ id, (s.extensions.rows.filter (·.envelopeID = id)).Pairwise fun x y =>
    x.newEnvelopeVersion < y.newEnvelopeVersion
  granted : ∀ x ∈ s.extensions.rows, ∀ i ∈ x.items,
    ∃ g, s.grants.get (x.envelopeID, i.dimensionID) = some g
  chain : ∀ id d g, s.grants.get (id, d) = some g →
    ChainFrom g.grantedValue (itemsIn (s.extensions.rows.filter (·.envelopeID = id)) d)

theorem Chained.empty : Chained Store.empty where
  version _ _ he := by cases he
  reached _ hx := absurd hx not_mem_nil
  ordered _ := List.Pairwise.nil
  granted _ hx := absurd hx not_mem_nil
  chain _ _ _ hg := by cases hg

/-- The rows are in the order of the versions. -/
theorem Chained.extensionsOf_eq (hs : Chained s) (e : ID) :
    extensionsOf s e = s.extensions.rows.filter (·.envelopeID = e) :=
  ((hs.ordered e).imp fun h => le_of_lt h).insertionSort_eq

/-- Nothing is added to a dimension that the envelope is not granted. -/
theorem Chained.items_eq_nil (hs : Chained s) {id d : ID} (h : s.grants.get (id, d) = none) :
    itemsIn (s.extensions.rows.filter (·.envelopeID = id)) d = [] := by
  rw [itemsIn, flatMap_eq_nil_iff]
  intro x hx
  obtain ⟨hmem, henvelope⟩ := mem_filter.mp hx
  rw [filter_eq_nil_iff]
  intro i hi hdimension
  obtain ⟨g, hg⟩ := hs.granted x hmem i hi
  rw [of_decide_eq_true henvelope, of_decide_eq_true hdimension, h] at hg
  cases hg

theorem itemsIn_sum (rows : List Extension) (e d : ID) :
    ((itemsIn (rows.filter (·.envelopeID = e)) d).map (·.addedValue)).sum =
      (rows.map fun x => if x.envelopeID = e then x.added d else 0).sum := by
  induction rows with
  | nil => rfl
  | cons x rows ih =>
    have hitems : ((x.items.filter (·.dimensionID = d)).map (·.addedValue)).sum = x.added d := by
      rw [Extension.added, sum_map_ite]
      simp
    rw [map_cons, sum_cons, ← ih]
    by_cases he : x.envelopeID = e
    · rw [filter_cons_of_pos (by simpa using he), if_pos he, itemsIn, flatMap_cons,
        map_append, List.sum_append, hitems]
      rfl
    · rw [filter_cons_of_neg (by simpa using he), if_neg he, zero_add]

/-- Of the items of an extension, at most one is of a dimension. -/
theorem items_filter {items : List ExtensionItem} (h : (items.map (·.dimensionID)).Nodup) (d : ID) :
    items.filter (·.dimensionID = d) = [] ∨
      ∃ i ∈ items, i.dimensionID = d ∧ items.filter (·.dimensionID = d) = [i] := by
  induction items with
  | nil => exact Or.inl rfl
  | cons i items ih =>
    rw [map_cons, nodup_cons] at h
    by_cases hd : i.dimensionID = d
    · refine Or.inr ⟨i, mem_cons_self, hd, ?_⟩
      have hrest : items.filter (·.dimensionID = d) = [] := by
        rw [filter_eq_nil_iff]
        intro j hj hsame
        refine h.1 (List.mem_map.mpr ⟨j, hj, ?_⟩)
        rw [hd]
        exact of_decide_eq_true hsame
      rw [filter_cons_of_pos (by simpa using hd), hrest]
    · rw [filter_cons_of_neg (by simpa using hd)]
      rcases ih h.2 with hnil | ⟨j, hj, hdj, hone⟩
      · exact Or.inl hnil
      · exact Or.inr ⟨j, mem_cons_of_mem _ hj, hdj, hone⟩

section Extend

variable {extension : ResourceExtension} {row : Extension} {e : Envelope} {run run' : Run}

theorem Extends.rows_eq (h : Extends dep extension row e run run' s t) :
    t.extensions.rows = s.extensions.rows ++ [row] := by
  rw [h.store_eq.extensions, rows_put_of_none _ h.row_none]

theorem Extends.filter_eq (h : Extends dep extension row e run run' s t) (id : ID) :
    t.extensions.rows.filter (·.envelopeID = id) =
      s.extensions.rows.filter (·.envelopeID = id) ++ if e.id = id then [row] else [] := by
  rw [h.rows_eq, filter_append]
  congr 1
  by_cases hid : e.id = id
  · rw [if_pos hid, filter_cons_of_pos (by simpa [h.envelopeID] using hid), filter_nil]
  · rw [if_neg hid, filter_cons_of_neg (by simpa [h.envelopeID] using hid), filter_nil]

theorem Extends.newEnvelopeVersion (h : Extends dep extension row e run run' s t) :
    row.newEnvelopeVersion = e.version + 1 := by
  rw [h.row_eq]
  rfl

theorem Extends.chained (hs : Chained s) (h : Extends dep extension row e run run' s t) : Chained t where
  version id e' he' := by
    rw [h.store_eq.envelopes, get_put] at he'
    rw [h.filter_eq, length_append]
    split_ifs at he' with hid
    · cases he'
      rw [if_pos hid.symm, length_singleton, hid, hs.version _ e h.envelope]
      push_cast
      omega
    · rw [if_neg (Ne.symm hid), length_nil, hs.version id e' he']
      push_cast
      omega
  reached x hx := by
    rw [h.rows_eq, mem_append, mem_singleton] at hx
    rw [h.store_eq.envelopes]
    rcases hx with hx | rfl
    · obtain ⟨e', he', hle⟩ := hs.reached x hx
      rw [get_put]
      split_ifs with hid
      · refine ⟨_, rfl, ?_⟩
        rw [hid, h.envelope] at he'
        cases he'
        show x.newEnvelopeVersion ≤ e.version + 1
        omega
      · exact ⟨e', he', hle⟩
    · rw [h.envelopeID]
      exact ⟨_, get_put_self s.envelopes { e with version := e.version + 1 },
        le_of_eq h.newEnvelopeVersion⟩
  ordered id := by
    rw [h.filter_eq, pairwise_append]
    refine ⟨hs.ordered id, by split_ifs <;> simp, fun x hx y hy => ?_⟩
    split_ifs at hy with hid
    · cases mem_singleton.mp hy
      obtain ⟨hmem, henvelope⟩ := mem_filter.mp hx
      obtain ⟨e', he', hle⟩ := hs.reached x hmem
      rw [of_decide_eq_true henvelope, ← hid, h.envelope] at he'
      cases he'
      rw [h.newEnvelopeVersion]
      omega
    · cases hy
  granted x hx i hi := by
    rw [h.rows_eq, mem_append, mem_singleton] at hx
    rw [h.store_eq.grants]
    rcases hx with hx | rfl
    · exact hs.granted x hx i hi
    · obtain ⟨_, _, hadds⟩ := exists_of_forall₂ h.items hi
      obtain ⟨g, hg, _⟩ := hadds.grant
      exact ⟨g, h.envelopeID ▸ hg⟩
  chain id d g hg := by
    rw [h.store_eq.grants] at hg
    have hold := hs.chain id d g hg
    rw [h.filter_eq, itemsIn, flatMap_append]
    split_ifs with hid
    · rw [flatMap_singleton]
      rcases items_filter h.items_nodup d with hnil | ⟨i, hi, rfl, hone⟩
      · rw [hnil, append_nil]
        exact hold
      · rw [hone]
        obtain ⟨_, _, hadds⟩ := exists_of_forall₂ h.items hi
        obtain ⟨g', hg', hprior⟩ := hadds.grant
        rw [hid, hg] at hg'
        cases hg'
        refine hold.snoc ?_ hadds.sum
        rw [hprior, itemsIn_sum, hid]
        rfl
    · rw [flatMap_nil, append_nil]
      exact hold

end Extend

/-- A move extends an envelope, or leaves the extensions and the versions alone. -/
theorem Moves.extends_or_kept (h : Moves dep request held s t link) :
    (∃ candidate evidence extension row e run run', request = .extendResources candidate evidence ∧
      validateResourceExtension candidate = .ok extension ∧ Extends dep extension row e run run' s t) ∨
    (t.extensions = s.extensions ∧ ∀ id e, t.envelopes.get id = some e →
      s.envelopes.get id = some e ∨ (s.envelopes.get id = none ∧ e.version = 1)) := by
  have hsame : t.envelopes = s.envelopes → ∀ id e, t.envelopes.get id = some e →
      s.envelopes.get id = some e ∨ (s.envelopes.get id = none ∧ e.version = 1) :=
    fun heq id e he => Or.inl (heq ▸ he)
  cases h with
  | idle h => exact Or.inr ⟨h.store_eq.extensions, hsame h.store_eq.envelopes⟩
  | reserve _ _ _ _ _ h => exact Or.inr ⟨h.evidenced.extensions, hsame h.evidenced.envelopes⟩
  | meter _ _ _ _ _ h => exact Or.inr ⟨h.store_eq.extensions, hsame h.store_eq.envelopes⟩
  | close _ _ _ h _ => exact Or.inr ⟨h.store_eq.extensions, hsame h.store_eq.envelopes⟩
  | extend candidate extension row e run run' hrequest hvalid h =>
    obtain ⟨evidence, hrequest⟩ := hrequest
    exact Or.inl ⟨candidate, evidence, extension, row, e, run, run', hrequest, hvalid, h⟩
  | admitRun admission _ _ parent _ _ _ h =>
    refine Or.inr ⟨h.store_eq.extensions, fun id e he => ?_⟩
    rw [h.store_eq.envelopes, get_put] at he
    split_ifs at he with hid
    · cases he
      exact Or.inr ⟨hid ▸ h.envelope_none, rfl⟩
    · exact Or.inl he

theorem Chained.moves (hs : Chained s) (h : Moves dep request held s t link) : Chained t := by
  rcases h.extends_or_kept with ⟨_, _, _, _, _, _, _, _, _, hextends⟩ | ⟨hextensions, henvelopes⟩
  · exact hextends.chained hs
  refine ⟨fun id e he => ?_, fun x hx => ?_, ?_, fun x hx i hi => ?_, fun id d g hg => ?_⟩
  · rw [hextensions]
    rcases henvelopes id e he with hold | ⟨hnone, hfirst⟩
    · exact hs.version id e hold
    · -- A new envelope has no extension: those that are there have their envelopes.
      have hempty : s.extensions.rows.filter (·.envelopeID = id) = [] := by
        rw [filter_eq_nil_iff]
        intro x hx henvelope
        obtain ⟨e', he', _⟩ := hs.reached x hx
        rw [of_decide_eq_true henvelope, hnone] at he'
        cases he'
      rw [hempty, hfirst]
      rfl
  · rw [hextensions] at hx
    obtain ⟨e, he, hle⟩ := hs.reached x hx
    obtain ⟨e', he', hkeep⟩ := h.keeps.envelopes _ e he
    rcases henvelopes _ e' he' with hold | ⟨hnone, _⟩
    · rw [he] at hold
      cases hold
      exact ⟨e, he', hle⟩
    · rw [he] at hnone
      cases hnone
  · rw [hextensions]
    exact hs.ordered
  · rw [hextensions] at hx
    obtain ⟨g, hg⟩ := hs.granted x hx i hi
    obtain ⟨g', hg', _⟩ := h.keeps.grants _ g hg
    exact ⟨g', hg'⟩
  · rw [hextensions]
    cases hold : s.grants.get (id, d) with
    | some g' =>
      obtain ⟨_, hkept, rfl⟩ := h.keeps.grants _ g' hold
      rw [hg] at hkept
      cases hkept
      exact hs.chain id d g hold
    | none =>
      rw [hs.items_eq_nil hold]
      trivial

variable {governor : Governor}

theorem Reachable.chained (h : Reachable dep governor) :
    Chained governor.committed :=
  (h.invariant Chained.empty fun _ _ _ _ _ hmove hs => hs.moves hmove).1

/-! ### The commit that extends -/

/-- No two extensions of an actor are under one key. -/
def KeysDistinct (s : Store) : Prop :=
  ∀ x ∈ s.extensions.rows, ∀ y ∈ s.extensions.rows, x.actorPrincipalID = y.actorPrincipalID →
    x.idempotencyKey = y.idempotencyKey → x = y

theorem Extends.row_key {row : Extension} {e : Envelope} {run run' : Run}
    (h : Extends dep extension row e run run' s t) :
    row.actorPrincipalID = extension.actorPrincipalID ∧ row.idempotencyKey = extension.idempotencyKey ∧
      row.contentDigest = resourceExtensionDigest dep extension := by
  rw [h.row_eq]
  exact ⟨rfl, rfl, rfl⟩

theorem KeysDistinct.moves (hs : KeysDistinct s) (h : Moves dep request held s t link) :
    KeysDistinct t := by
  rcases h.extends_or_kept with ⟨_, _, _, row, _, _, _, _, _, hextends⟩ | ⟨hextensions, _⟩
  · obtain ⟨hactor, hkey, _⟩ := hextends.row_key
    have hfresh : ∀ x ∈ s.extensions.rows, x.actorPrincipalID = row.actorPrincipalID →
        x.idempotencyKey ≠ row.idempotencyKey := fun x hx hactor' hkey' =>
      (hextends.fresh x hx).2 ⟨hactor'.trans hactor, hkey'.trans hkey⟩
    intro x hx y hy hactors hkeys
    rw [hextends.rows_eq, mem_append, mem_singleton] at hx hy
    rcases hx with hx | rfl
    · rcases hy with hy | rfl
      · exact hs x hx y hy hactors hkeys
      · exact absurd hkeys (hfresh x hx hactors)
    · rcases hy with hy | rfl
      · exact absurd hkeys.symm (hfresh y hy hactors.symm)
      · rfl
  · unfold KeysDistinct
    rw [hextensions]
    exact hs

theorem Reachable.keysDistinct (h : Reachable dep governor) :
    KeysDistinct governor.committed ∧ ∀ c ∈ governor.log, KeysDistinct c.before ∧
      KeysDistinct c.after ∧ storeEngine.Commits (program dep) c.request c.response c.before c.after :=
  h.invariant (fun _ hx => absurd hx not_mem_nil) fun _ _ _ _ _ hmove hs => hs.moves hmove

/-- The commit of the call that made the extension: the run was active, and its requester was another. -/
structure ExtendedBy (dep : Deployment) (c : Commit Store Response Request) (x : Extension)
    (extension : ResourceExtension) : Prop where
  request : ∃ candidate evidence, c.request = .extendResources candidate evidence ∧
    validateResourceExtension candidate = .ok extension
  response : c.response = .extended x.result
  key : x.actorPrincipalID = extension.actorPrincipalID ∧ x.idempotencyKey = extension.idempotencyKey
  digest : x.contentDigest = resourceExtensionDigest dep extension
  fresh : ∀ y ∈ c.before.extensions.rows,
    ¬(y.actorPrincipalID = x.actorPrincipalID ∧ y.idempotencyKey = x.idempotencyKey)
  run : ∃ run, c.before.runs.get x.runID = some run ∧ run.state.terminal = false ∧
    run.requestedBy ≠ x.actorPrincipalID

variable {x : Extension}

theorem Transition.extension_origin (h : Transition dep request held s t)
    (hx : x ∈ t.extensions.rows) (hnew : x ∉ s.extensions.rows) :
    ∃ candidate evidence, request = .extendResources candidate evidence := by
  cases h with
  | single h =>
    rcases h.extends_or_kept with ⟨candidate, evidence, _, _, _, _, _, hrequest, _⟩ | ⟨hkept, _⟩
    · exact ⟨candidate, evidence, hrequest⟩
    · exact absurd (hkept ▸ hx) hnew
  | delegate _ _ _ _ _ _ _ mid _ _ _ h =>
    rw [h.reserves.evidenced.extensions, h.admits.store_eq.extensions] at hx
    exact absurd hx hnew

variable {c : StoreCommit}

theorem extendedBy_of_new
    (h : storeEngine.Commits (program dep) c.request c.response c.before c.after)
    (hx : x ∈ c.after.extensions.rows) (hnew : x ∉ c.before.extensions.rows) :
    ∃ extension, ExtendedBy dep c x extension := by
  obtain ⟨held, htransition⟩ := commits_transition h
  obtain ⟨candidate, evidence, hrequest⟩ := htransition.extension_origin hx hnew
  rw [hrequest] at h
  obtain ⟨held', hexec⟩ := h
  obtain ⟨result, hextend, hresponse⟩ := exec_respond hexec
  obtain ⟨extension, hvalid, ⟨hsame, _⟩ | ⟨row, e, run, run', hextends, rfl, _⟩⟩ :=
    exec_extendResources hextend
  · exact absurd (hsame ▸ hx) hnew
  · rw [hextends.rows_eq, mem_append, mem_singleton] at hx
    obtain rfl := hx.resolve_left hnew
    obtain ⟨hactor, hkey, hdigest⟩ := hextends.row_key
    have hrunID : x.runID = extension.runID := by
      rw [hextends.row_eq]
      rfl
    refine ⟨extension, ⟨candidate, evidence, hrequest, hvalid⟩, hresponse, ⟨hactor, hkey⟩, hdigest,
      fun y hy => ?_, run, hrunID ▸ hextends.run_get, hextends.run_active, ?_⟩
    · rw [hactor, hkey]
      exact (hextends.fresh y hy).2
    · rw [hactor]
      exact hextends.requester

/-- One commit makes the extension; the others make none under its key. -/
theorem Reachable.extended_once (h : Reachable dep governor)
    (hx : x ∈ governor.committed.extensions.rows) :
    ∃ log₁ c log₂ extension, governor.log = log₁ ++ c :: log₂ ∧ ExtendedBy dep c x extension ∧
      ∀ c' ∈ log₁ ++ log₂, ∀ y ∈ c'.after.extensions.rows,
        y.actorPrincipalID = x.actorPrincipalID ∧ y.idempotencyKey = x.idempotencyKey →
        y ∈ c'.before.extensions.rows := by
  obtain ⟨hdistinct, hcommits⟩ := h.keysDistinct
  obtain ⟨log₁, c, log₂, hlog, hbefore, hafter, hothers⟩ := h.history.once Store.extensions
    (fun y x => y.actorPrincipalID = x.actorPrincipalID ∧ y.idempotencyKey = x.idempotencyKey) rfl
    (fun c hc => (commits_transition (hcommits c hc).2.2).elim fun _ ht => ht.keeps.extensions)
    (fun x hx y hy hsame => hdistinct y hy x hx hsame.1 hsame.2)
    (fun c hc y hy hnew z hz hsame => by
      obtain ⟨_, hextended⟩ := extendedBy_of_new (hcommits c hc).2.2 hy hnew
      exact hextended.fresh z hz ⟨hsame.1.symm, hsame.2.symm⟩) hx
  obtain ⟨extension, hextended⟩ :=
    extendedBy_of_new (hcommits c (by simp [hlog])).2.2 hafter hbefore
  exact ⟨log₁, c, log₂, extension, hlog, hextended, hothers⟩

/-! ### Retries -/

/-- The replay check comes before everything that depends on the state. -/
theorem concludes_extendResources
    {evidence : ResourceExtensionEvidence} (hvalid : validateResourceExtension candidate = .ok extension)
    (hactor : extension.actorPrincipalID = x.actorPrincipalID)
    (hkey : extension.idempotencyKey = x.idempotencyKey) :
    (extendResources dep candidate evidence).Concludes
      (fun s => KeysDistinct s ∧ x ∈ s.extensions.rows)
      (fun outcome => if extension.tenantID = dep.tenantID ∧ evidence.valid = true ∧
          x.contentDigest = resourceExtensionDigest dep extension then outcome = .ok x.result
        else ∃ error, outcome = .error error) := by
  refine Tx.Concludes.ofExcept (fun _ hok => ?_) fun e he => by rw [hvalid] at he; cases he
  cases hvalid.symm.trans hok
  refine Tx.Concludes.require (fun htenant => ?_) fun htenant => ?_
  swap
  · rw [if_neg fun hall => htenant hall.1]
    exact ⟨_, rfl⟩
  refine Tx.Concludes.require (fun hevidence => ?_) fun hevidence => ?_
  swap
  · rw [if_neg fun hall => hevidence hall.2.1]
    exact ⟨_, rfl⟩
  refine Tx.Concludes.acquire (Tx.Concludes.snapshot fun s hs => ?_)
  have hfound : s.extensions.rows.find? (fun y => y.actorPrincipalID = extension.actorPrincipalID &&
      y.idempotencyKey = extension.idempotencyKey) = some x := by
    cases hfind : s.extensions.rows.find? (fun y => y.actorPrincipalID = extension.actorPrincipalID &&
      y.idempotencyKey = extension.idempotencyKey) with
    | none => simpa [hactor, hkey] using find?_eq_none.mp hfind x hs.2
    | some y =>
      have hy : y.actorPrincipalID = extension.actorPrincipalID ∧
          y.idempotencyKey = extension.idempotencyKey := by simpa using find?_some hfind
      rw [hs.1 y (mem_of_find?_eq_some hfind) x hs.2 (hy.1.trans hactor) (hy.2.trans hkey)]
  rw [hfound]
  refine Tx.Concludes.require (fun hdigest => ?_) fun hdigest => ?_
  · show ite _ _ _
    rw [if_pos ⟨htenant, hevidence, hdigest⟩]
    rfl
  · rw [if_neg fun hall => hdigest hall.2.2]
    exact ⟨_, rfl⟩

/-- A call under the key of the extension that started after it was made writes nothing. It returns the
result of the extension if it repeats the content of the original call, and is rejected if it does not. -/
def LaterExtensionsAnswer (dep : Deployment) (governor : Governor) (x : Extension)
    (original : ResourceExtension) : Prop :=
  ∀ (governor' : Governor) (i : Nat) (session : Session Store Lock Write Failure Response Request)
    (candidate extension : ResourceExtension) (evidence : ResourceExtensionEvidence),
    Later dep governor governor' → governor.sessions i = none → governor'.sessions i = some session →
    session.request = .extendResources candidate evidence →
    validateResourceExtension candidate = .ok extension →
    extension.actorPrincipalID = x.actorPrincipalID → extension.idempotencyKey = x.idempotencyKey →
    (extension.content = original.content → extension.tenantID = dep.tenantID → evidence.valid = true →
      session.Answers (· = .ok (.extended x.result))) ∧
    (Function.Injective dep.sha256 → extension.content ≠ original.content →
      session.Answers fun outcome => ∃ error, outcome = .error error)

theorem Reachable.laterExtensionsAnswer (h : Reachable dep governor)
    (hx : x ∈ governor.committed.extensions.rows)
    {original : ResourceExtension} (horiginal : ExtendedBy dep c x original) :
    LaterExtensionsAnswer dep governor x original := by
  intro governor' i session candidate extension evidence hlater hidle hsession hrequest hvalid hactor hkey
  have hanswers := h.answers (P := fun s => KeysDistinct s ∧ x ∈ s.extensions.rows)
    (Q := fun outcome => ∃ result : Except Failure ResourceExtensionResult,
      outcome = result.map .extended ∧ if extension.tenantID = dep.tenantID ∧ evidence.valid = true ∧
        x.contentDigest = resourceExtensionDigest dep extension then result = .ok x.result
      else ∃ error, result = .error error) hlater hidle (fun mid hmid hfrom _ => by
        obtain ⟨_, hkept, rfl⟩ := hfrom.extensions _ _ (get_of_mem hx)
        exact ⟨hmid.keysDistinct.1, mem_of_get hkept⟩) hsession (by
        rw [hrequest]
        exact (concludes_extendResources hvalid hactor hkey).bind
          (fun result hresult => ⟨_, rfl, hresult⟩) fun e he => ⟨_, rfl, he⟩)
  obtain ⟨_, _, _, hvalid'⟩ := horiginal.request
  refine ⟨fun hcontent htenant hevidence => hanswers.mono ?_, fun hsha hcontent => hanswers.mono ?_⟩
  · rintro _ ⟨result, rfl, hresult⟩
    rw [if_pos ⟨htenant, hevidence, horiginal.digest.trans
      (resourceExtensionDigest_congr hcontent.symm)⟩] at hresult
    rw [hresult]
    rfl
  · rintro _ ⟨result, rfl, hresult⟩
    rw [if_neg fun hall => hcontent (content_of_resourceExtensionDigest hsha hvalid hvalid'
      (hall.2.2.symm.trans horiginal.digest))] at hresult
    obtain ⟨error, rfl⟩ := hresult
    exact ⟨error, rfl⟩

/-- A commit under the key of an extension, except the one that made it, changes nothing, returns its
result and has its digest. -/
theorem Reachable.extended_again (h : Reachable dep governor)
    (hx : x ∈ governor.committed.extensions.rows)
    (hc : c ∈ governor.log)
    (hadds : ∀ y ∈ c.after.extensions.rows, y.actorPrincipalID = x.actorPrincipalID ∧
      y.idempotencyKey = x.idempotencyKey → y ∈ c.before.extensions.rows)
    {evidence : ResourceExtensionEvidence}
    (hrequest : c.request = .extendResources candidate evidence)
    (hactor : candidate.actorPrincipalID = x.actorPrincipalID)
    (hkey : candidate.idempotencyKey = x.idempotencyKey) :
    c.after = c.before ∧ c.response = .extended x.result ∧ ∃ extension,
      validateResourceExtension candidate = .ok extension ∧
        x.contentDigest = resourceExtensionDigest dep extension := by
  obtain ⟨hdistinct, hcommits⟩ := h.keysDistinct
  obtain ⟨_, _, hcommit⟩ := hcommits c hc
  rw [hrequest] at hcommit
  obtain ⟨held, hexec⟩ := hcommit
  obtain ⟨result, hextend, hresponse⟩ := exec_respond hexec
  obtain ⟨extension, hvalid, hcases⟩ := exec_extendResources hextend
  obtain ⟨_, _, _, hactor', hkey', _⟩ := validateResourceExtension_spec hvalid
  rcases hcases with ⟨hsame, y, hy, hyactor, hykey, hdigest, rfl⟩ | ⟨row, e, run, run', hextends, _⟩
  · have hkept := h.since (R := Store.Records) Store.Records.refl (fun _ _ _ => Store.Records.trans)
      (fun _ _ _ _ ht => ⟨ht.keeps.usage, ht.keeps.extensions, ht.keeps.settlements⟩) c hc
    obtain ⟨_, hend, rfl⟩ := hkept.extensions _ y (get_of_mem (hsame.symm ▸ hy))
    rw [← hdistinct y (mem_of_get hend) x hx (hyactor.trans (hactor'.trans hactor))
      (hykey.trans (hkey'.trans hkey))]
    exact ⟨hsame, hresponse, extension, hvalid, hdigest⟩
  · obtain ⟨hrowActor, hrowKey, _⟩ := hextends.row_key
    have hnew : row ∈ c.after.extensions.rows := by
      rw [hextends.rows_eq]
      exact mem_append_right _ mem_cons_self
    have hold := hadds row hnew
      ⟨hrowActor.trans (hactor'.trans hactor), hrowKey.trans (hkey'.trans hkey)⟩
    exact absurd hextends.row_id (hextends.fresh row hold).1

/-! ### Deadlines -/

theorem extendedDeadline_grows {deadline deadline' : Option Int} {seconds : Int}
    (h : extendedDeadline deadline seconds = .ok deadline') :
    Option.Rel (· ≤ ·) deadline deadline' := by
  obtain ⟨hmoved, hlater⟩ := extendedDeadline_spec h
  cases deadline with
  | none =>
    rcases hmoved with rfl | rfl
    · exact .none
    · exact .none
  | some d =>
    obtain ⟨d', rfl⟩ : ∃ d', deadline' = some d' := by
      rcases hmoved with rfl | rfl
      · exact ⟨d, rfl⟩
      · exact ⟨_, rfl⟩
    obtain ⟨_, hd, hle⟩ := hlater d' rfl
    cases hd
    exact .some hle

/-- Runs are kept, and their deadlines do not move to an earlier time. -/
def DeadlinesGrow (s t : Store) : Prop :=
  ∀ id r, s.runs.get id = some r → ∃ r', t.runs.get id = some r' ∧
    Option.Rel (· ≤ ·) r.deadlineAt r'.deadlineAt

theorem deadline_refl (deadline : Option Int) : Option.Rel (· ≤ ·) deadline deadline := by
  cases deadline with
  | none => exact .none
  | some d => exact .some (le_refl d)

theorem DeadlinesGrow.refl (s : Store) : DeadlinesGrow s s :=
  fun _ r hr => ⟨r, hr, deadline_refl r.deadlineAt⟩

theorem DeadlinesGrow.trans {u : Store} (h : DeadlinesGrow s t) (h' : DeadlinesGrow t u) :
    DeadlinesGrow s u := by
  intro id r hr
  obtain ⟨r', hr', hle⟩ := h id r hr
  obtain ⟨r'', hr'', hle'⟩ := h' id r' hr'
  refine ⟨r'', hr'', ?_⟩
  revert hle hle'
  generalize r.deadlineAt = a
  generalize r'.deadlineAt = b
  generalize r''.deadlineAt = c
  rintro (hab | _) hbc
  · cases hbc with
    | some hbc => exact .some (le_trans hab hbc)
  · cases hbc
    exact .none

theorem Moves.deadlinesGrow (h : Moves dep request held s t link) : DeadlinesGrow s t := by
  intro id r hr
  rcases h.deadline with hsame | ⟨_, _, _, _, _, run, run', _, _, hextends⟩
  · obtain ⟨r', hr', hdeadline⟩ := hsame id r hr
    exact ⟨r', hr', hdeadline ▸ deadline_refl _⟩
  · rw [hextends.store_eq.runs, get_put]
    split_ifs with hid
    · refine ⟨run', rfl, ?_⟩
      rw [hid, hextends.run_kept.1, key_of_get hextends.run_get, hextends.run_get] at hr
      cases hr
      exact extendedDeadline_grows hextends.deadline
    · exact ⟨r, hr, deadline_refl _⟩

/-! ### The main result -/

/-- Each extension is made once under the key of its actor, for an active run that another has requested,
and answers all retries; whatever else commits under the key had its content; versions count extensions;
the items of a dimension form a chain from its grant; and deadlines never move to an earlier time. -/
theorem extensions_form_chain {governor : Governor} (h : Reachable dep governor) :
    (∀ x ∈ governor.committed.extensions.rows, ∀ y ∈ governor.committed.extensions.rows,
      x.actorPrincipalID = y.actorPrincipalID → x.idempotencyKey = y.idempotencyKey → x = y) ∧
    (∀ x ∈ governor.committed.extensions.rows, ∃ log₁ c log₂ original,
      governor.log = log₁ ++ c :: log₂ ∧ ExtendedBy dep c x original ∧
      (∀ c' ∈ log₁ ++ log₂, ∀ candidate evidence, c'.request = .extendResources candidate evidence →
        candidate.actorPrincipalID = x.actorPrincipalID → candidate.idempotencyKey = x.idempotencyKey →
        c'.after = c'.before ∧ c'.response = .extended x.result ∧ ∃ extension,
          validateResourceExtension candidate = .ok extension ∧
          x.contentDigest = resourceExtensionDigest dep extension ∧
          (Function.Injective dep.sha256 → extension.content = original.content)) ∧
      LaterExtensionsAnswer dep governor x original) ∧
    (∀ id e, governor.committed.envelopes.get id = some e →
      e.version = 1 + (extensionsOf governor.committed id).length) ∧
    (∀ id d, itemsIn (extensionsOf governor.committed id) d = [] ∨
      ∃ g, governor.committed.grants.get (id, d) = some g ∧
        ChainFrom g.grantedValue (itemsIn (extensionsOf governor.committed id) d)) ∧
    (∀ c ∈ governor.log, DeadlinesGrow c.before c.after ∧ DeadlinesGrow c.after governor.committed) := by
  have hchained := h.chained
  refine ⟨h.keysDistinct.1, fun x hx => ?_, fun id e he => ?_, fun id d => ?_, fun c hc => ⟨?_, ?_⟩⟩
  · obtain ⟨log₁, c, log₂, original, hlog, hextended, hothers⟩ := h.extended_once hx
    refine ⟨log₁, c, log₂, original, hlog, hextended,
      fun c' hc' candidate evidence hrequest hactor hkey => ?_, h.laterExtensionsAnswer hx hextended⟩
    have hmem : c' ∈ governor.log := by
      rw [hlog]
      rcases mem_append.mp hc' with hc' | hc'
      · exact mem_append_left _ hc'
      · exact mem_append_right _ (mem_cons_of_mem _ hc')
    obtain ⟨hsame, hresponse, extension, hvalid, hdigest⟩ :=
      h.extended_again hx hmem (hothers c' hc') hrequest hactor hkey
    obtain ⟨_, _, _, hvalid'⟩ := hextended.request
    exact ⟨hsame, hresponse, extension, hvalid, hdigest, fun hsha =>
      content_of_resourceExtensionDigest hsha hvalid hvalid' (hdigest.symm.trans hextended.digest)⟩
  · rw [hchained.extensionsOf_eq]
    exact hchained.version id e he
  · rw [hchained.extensionsOf_eq]
    cases hg : governor.committed.grants.get (id, d) with
    | none => exact Or.inl (hchained.items_eq_nil hg)
    | some g => exact Or.inr ⟨g, rfl, hchained.chain id d g hg⟩
  · obtain ⟨held, htransition⟩ := commits_transition (h.sound.2 c hc).2.2
    exact htransition.relates (fun _ _ _ hmove => hmove.deadlinesGrow) fun _ _ _ => DeadlinesGrow.trans
  · exact h.since DeadlinesGrow.refl (fun _ _ _ => DeadlinesGrow.trans)
      (fun _ _ _ _ ht => ht.relates (fun _ _ _ hmove => hmove.deadlinesGrow)
        fun _ _ _ => DeadlinesGrow.trans) c hc

/-- The root is extended under two keys, and the first call is repeated. -/
def Sample.extendedTwice : List Request :=
  let again (extension : Nat) (key : String) : Request :=
    .extendResources ⟨.ofNat extension, .ofNat 1, .ofNat 100, .ofNat 7, .ofNat 5, key, "manual", "ticket",
      [⟨"tool_calls", addedCalls⟩], 0, instant 400⟩
      ⟨.ofNat (extension + 1), .ofNat (extension + 2), .ofNat (extension + 3), .ofNat (extension + 4), ["ok"]⟩
  provision ++ [admitRoot 100 (("max_tool_calls", .int 10) :: limits)] ++ start 100 ++
    [again 700 "first", again 710 "second", again 720 "first"]

theorem Sample.extendedTwice_evaluated :
    ((itemsIn (extensionsOf (after extendedTwice).committed (.ofNat 101)) (.ofNat 11)).map
      fun i => (i.priorGrantedValue, i.newGrantedValue)) = [(10, 14), (14, 18)] ∧
    ((after extendedTwice).log.drop 9).map (·.response) =
      [.extended ⟨.ofNat 700, 2, none, false⟩, .extended ⟨.ofNat 710, 3, none, false⟩,
        .extended ⟨.ofNat 700, 2, none, false⟩] := by
  decide +kernel

theorem extensions_form_chain_twice : ∃ g,
    (after extendedTwice).committed.grants.get (.ofNat 101, .ofNat 11) = some g ∧
    ChainFrom g.grantedValue
      (itemsIn (extensionsOf (after extendedTwice).committed (.ofNat 101)) (.ofNat 11)) ∧
    ((itemsIn (extensionsOf (after extendedTwice).committed (.ofNat 101)) (.ofNat 11)).map
      fun i => (i.priorGrantedValue, i.newGrantedValue)) = [(10, 14), (14, 18)] := by
  obtain ⟨hitems, _⟩ := extendedTwice_evaluated
  rcases (extensions_form_chain (reachable extendedTwice)).2.2.2.1 (.ofNat 101)
    (.ofNat 11) with hnil | ⟨g, hg, hchain⟩
  · rw [hnil] at hitems
    cases hitems
  · exact ⟨g, hg, hchain, hitems⟩

end AgentGovernor
