import CommandSpec.Proofs.Places
import CommandSpec.Proofs.UnknownFields

/-! Records with their fields in another order. What a field is set to hangs on its value only, and
different fields are set independently of each other (`SetsApart`); no field stands twice. So two
entries that stand next to each other can change places (`ReadsRecord.swap`), and with them all
entries (`ReadsRecord.perm`). -/
namespace CommandSpec

variable {α β γ : Type}

/-- A field is set to the same whatever the other fields are. `Change` says which changes of a
record set a field; those of different fields may be made in either order. -/
structure SetsApart (known : List String) (setField : String → Node → α → Except DecodeError α)
    (Change : String → (α → α) → Prop) : Prop where
  change : ∀ field ∈ known, ∀ v a b, setField field v a = .ok b →
    ∃ change, Change field change ∧ ∀ a, setField field v a = .ok (change a)
  comm : ∀ {field other : String} {change change' : α → α}, field ≠ other →
    Change field change → Change other change' → ∀ a, change (change' a) = change' (change a)

/-- A record of one field has no other field to be set first. -/
theorem SetsApart.of_single (field : String) (read : Node → Except DecodeError α) :
    SetsApart [field] (fun _ v _ => read v) fun field' change =>
      field' = field ∧ ∃ b, change = fun _ => b where
  change field' hfield v a b h := by
    obtain rfl := List.mem_singleton.mp hfield
    exact ⟨fun _ => b, ⟨rfl, b, rfl⟩, fun _ => h⟩
  comm hne h h' := absurd (h.1.trans h'.1.symm) hne

namespace ReadsRecord

variable {known : List String} {setField : String → Node → α → Except DecodeError α}
  {name : β → Except DecodeError String} {value : β → Node} {skip : β → Except DecodeError Unit}
  {read : List String → α → List β → Except DecodeError α}

/-- Reading got past an entry. -/
inductive Passes (known : List String) (setField : String → Node → α → Except DecodeError α)
    (name : β → Except DecodeError String) (value : β → Node) (skip : β → Except DecodeError Unit)
    (e : β) (seen : List String) (a : α) : List String → α → Prop where
  | field {field : String} {b : α} (he : name e = .ok field) (hknown : field ∈ known)
      (hnew : field ∉ seen) (hset : setField field (value e) a = .ok b) :
      Passes known setField name value skip e seen a (field :: seen) b
  | unknown {field : String} (he : name e = .ok field) (hknown : field ∉ known)
      (hskip : skip e = .ok ()) : Passes known setField name value skip e seen a seen a

theorem cons_eq_ok_iff (hr : ReadsRecord known setField name value skip read) (seen : List String)
    (a c : α) (e : β) (rest : List β) :
    read seen a (e :: rest) = .ok c ↔
      ∃ past b, Passes known setField name value skip e seen a past b ∧
        read past b rest = .ok c := by
  rw [hr.cons]
  constructor
  · intro h
    obtain ⟨field, he, h⟩ := bind_eq_ok h
    split at h
    · rename_i hknown
      split at h
      · cases h
      · rename_i hnew
        obtain ⟨b, hb, h⟩ := bind_eq_ok h
        exact ⟨_, b, .field he (by simpa using hknown) (by simpa using hnew) hb, h⟩
    · rename_i hknown
      obtain ⟨⟨⟩, hskip, h⟩ := bind_eq_ok h
      exact ⟨_, a, .unknown he (by simpa using hknown) hskip, h⟩
  · rintro ⟨past, b, hpass, h⟩
    cases hpass with
    | field he hknown hnew hset => simp [he, hknown, hnew, hset, h]
    | unknown he hknown hskip => simp [he, hknown, hskip, h]

/-- Two entries that are read one after the other may be read the other way round. -/
theorem Passes.swap {Change : String → (α → α) → Prop} (hs : SetsApart known setField Change)
    {e e' : β} {seen between past : List String} {a b c : α}
    (h : Passes known setField name value skip e seen a between b)
    (h' : Passes known setField name value skip e' between b past c) :
    ∃ between' b' past', Passes known setField name value skip e' seen a between' b' ∧
      Passes known setField name value skip e between' b' past' c ∧ past.Perm past' := by
  cases h with
  | unknown he hknown hskip =>
    exact ⟨past, c, past, h', .unknown he hknown hskip, .refl _⟩
  | @field field _ he hknown hnew hset =>
    cases h' with
    | unknown he' hknown' hskip' =>
      exact ⟨seen, a, _, .unknown he' hknown' hskip', .field he hknown hnew hset, .refl _⟩
    | @field other _ he' hknown' hnew' hset' =>
      obtain ⟨hne, hnew'⟩ := List.ne_and_not_mem_of_not_mem_cons hnew'
      obtain ⟨change, hchange, hall⟩ := hs.change field hknown (value e) a b hset
      obtain ⟨change', hchange', hall'⟩ := hs.change other hknown' (value e') b c hset'
      obtain rfl : change a = b := Except.ok.inj ((hall a).symm.trans hset)
      obtain rfl : change' (change a) = c := Except.ok.inj ((hall' _).symm.trans hset')
      have hcomm : change (change' a) = change' (change a) :=
        hs.comm hne.symm hchange hchange' a
      have hnew : field ∉ other :: seen := List.not_mem_cons_of_ne_of_not_mem hne.symm hnew
      exact ⟨other :: seen, change' a, field :: other :: seen,
        .field he' hknown' hnew' (hall' a), hcomm ▸ .field he hknown hnew (hall _), .swap ..⟩

/-- The order of its entries does not matter to a record. -/
theorem perm (hr : ReadsRecord known setField name value skip read)
    {Change : String → (α → α) → Prop} (hs : SetsApart known setField Change) {es es' : List β}
    (h : es.Perm es') (seen : List String) (a c : α) (hread : read seen a es = .ok c) :
    read seen a es' = .ok c := by
  induction h generalizing seen a with
  | nil => exact hread
  | cons e _ ih =>
    obtain ⟨past, b, hpass, hread⟩ := (hr.cons_eq_ok_iff ..).mp hread
    exact (hr.cons_eq_ok_iff ..).mpr ⟨past, b, hpass, ih past b hread⟩
  | swap e e' rest =>
    obtain ⟨between, b, hpass', hread⟩ := (hr.cons_eq_ok_iff ..).mp hread
    obtain ⟨past, c', hpass, hread⟩ := (hr.cons_eq_ok_iff ..).mp hread
    obtain ⟨between', b', past', hpass, hpass', hp⟩ := hpass'.swap hs hpass
    have hrest := hr.seen_congr rest (fun _ _ _ _ => hp.mem_iff) c'
    exact (hr.cons_eq_ok_iff ..).mpr ⟨between', b', hpass,
      (hr.cons_eq_ok_iff ..).mpr ⟨past', c', hpass', hrest ▸ hread⟩⟩
  | trans _ _ ih ih' => exact ih' seen a (ih seen a hread)

end ReadsRecord

/-! ## The records -/

/-- A field that is set to what its node is read as. -/
theorem exists_change {set : α → Except DecodeError α} {P : (α → α) → Prop}
    (read : Except DecodeError γ) (store : γ → α → α)
    (hset : ∀ a, set a = read >>= fun c => .ok (store c a)) (hstore : ∀ c, P (store c)) {a b : α}
    (h : set a = .ok b) : ∃ change, P change ∧ ∀ a, set a = .ok (change a) := by
  rw [hset] at h
  obtain ⟨c, hc, -⟩ := bind_eq_ok h
  exact ⟨store c, hstore c, fun a => by rw [hset, hc, ok_bind]⟩

namespace Document

/-- What setting a field changes of a document. -/
inductive Change : String → (Document → Document) → Prop where
  | version (version : Option String) : Change "optionapi" fun d => { d with version }
  | options (options : List OptionEntry) : Change "options" fun d => { d with options }
  | commands (commands : Commands) : Change "commands" fun d => { d with commands }
  | components (components : NameMap OptionSpec) :
    Change "components" fun d => { d with components }
  | minArgs (minArgs : UInt32) : Change "minArgs" fun d => { d with minArgs }
  | maxArgs (maxArgs : UInt32) : Change "maxArgs" fun d => { d with maxArgs }

theorem setsApart : SetsApart fieldNames setField Change where
  change field hfield v d d' h := by
    simp only [fieldNames, List.mem_cons, List.not_mem_nil, or_false] at hfield
    rcases hfield with rfl | rfl | rfl | rfl | rfl | rfl
    · exact exists_change (Shape.optionApi.read v) (fun version d => { d with version })
        (fun d => Shape.store_unlessAbsent none readVersion
          (fun version : Option String => ({ d with version } : Document)) v) .version h
    · exact exists_change (readOptionList v) (fun options d => { d with options }) (fun _ => rfl)
        .options h
    · exact exists_change (Commands.ofNode v) (fun commands d => { d with commands }) (fun _ => rfl)
        .commands h
    · exact exists_change (Shape.components.read v) (fun components d => { d with components })
        (fun d => Shape.store_unlessAbsent (.empty : NameMap OptionSpec) readComponents
          (fun components : NameMap OptionSpec => ({ d with components } : Document)) v)
        .components h
    · exact exists_change v.readUInt32 (fun minArgs d => { d with minArgs }) (fun _ => rfl)
        .minArgs h
    · exact exists_change v.readUInt32 (fun maxArgs d => { d with maxArgs }) (fun _ => rfl)
        .maxArgs h
  comm hne h h' _ := by
    cases h <;> cases h' <;> first | rfl | exact absurd rfl hne

end Document

namespace Command

/-- What setting a field changes of a command. -/
inductive Change : String → (Command → Command) → Prop where
  | usage (usage : Option String) : Change "usage" fun c => { c with usage }
  | description (description : Option String) : Change "description" fun c => { c with description }
  | options (options : List OptionEntry) : Change "options" fun c => { c with options }
  | commands (commands : Commands) : Change "commands" fun c => { c with commands }
  | minArgs (minArgs : UInt32) : Change "minArgs" fun c => { c with minArgs }
  | maxArgs (maxArgs : UInt32) : Change "maxArgs" fun c => { c with maxArgs }

theorem setsApart : SetsApart fieldNames setField Change where
  change field hfield v c c' h := by
    -- all fields but one are of the declaration, which is put back into the command
    have hdeclared {γ : Type} {field : String} (hne : (field == "commands") = false)
        (read : Except DecodeError γ) (store : γ → Declaration → Declaration)
        (hset : ∀ d : Declaration, d.setField field v = read >>= fun b => .ok (store b d))
        (hstore : ∀ b, Change field fun c => { c with toDeclaration := store b c.toDeclaration })
        (h : setField field v c = .ok c') :
        ∃ change, Change field change ∧ ∀ c, setField field v c = .ok (change c) := by
      refine exists_change read _ (fun c => ?_) hstore h
      unfold setField
      rw [hne, if_neg Bool.false_ne_true, hset, bind_assoc]
      rfl
    simp only [fieldNames, List.mem_cons, List.not_mem_nil, or_false] at hfield
    rcases hfield with rfl | rfl | rfl | rfl | rfl | rfl
    · exact hdeclared rfl v.readOptionalString (fun usage d => { d with usage }) (fun _ => rfl)
        .usage h
    · exact hdeclared rfl v.readOptionalString (fun description d => { d with description })
        (fun _ => rfl) .description h
    · exact hdeclared rfl (readOptionList v) (fun options d => { d with options }) (fun _ => rfl)
        .options h
    · exact exists_change (Commands.ofNode v) (fun commands c => { c with commands }) (fun _ => rfl)
        .commands h
    · exact hdeclared rfl v.readUInt32 (fun minArgs d => { d with minArgs }) (fun _ => rfl)
        .minArgs h
    · exact hdeclared rfl v.readUInt32 (fun maxArgs d => { d with maxArgs }) (fun _ => rfl)
        .maxArgs h
  comm hne h h' _ := by
    cases h <;> cases h' <;> first | rfl | exact absurd rfl hne

end Command

namespace OptionSpec

/-- What setting a field changes of an option. -/
inductive Change : String → (OptionSpec → OptionSpec) → Prop where
  | name (name : String) : Change "name" fun o => { o with name }
  | type (typeTag : String) : Change "type" fun o => { o with typeTag }
  | description (description : Option String) : Change "description" fun o => { o with description }
  | usage (usage : Option String) : Change "usage" fun o => { o with usage }
  | env (env : String) : Change "env" fun o => { o with env }
  | flag (flag : FlagBinding) : Change "flag" fun o => { o with flag }
  | default (default : Option String) : Change "default" fun o => { o with default }
  | required (required : Bool) : Change "required" fun o => { o with required }

theorem setsApart (source : FieldSource) : SetsApart fieldNames (setField source) Change where
  change field hfield v o o' h := by
    simp only [fieldNames, List.mem_cons, List.not_mem_nil, or_false] at hfield
    rcases hfield with rfl | rfl | rfl | rfl | rfl | rfl | rfl | rfl
    · exact exists_change v.readString (fun name o => { o with name }) (fun _ => rfl) .name h
    · exact exists_change v.readString (fun typeTag o => { o with typeTag }) (fun _ => rfl) .type h
    · exact exists_change v.readOptionalString (fun description o => { o with description })
        (fun _ => rfl) .description h
    · exact exists_change v.readOptionalString (fun usage o => { o with usage }) (fun _ => rfl)
        .usage h
    · exact exists_change (Shape.readUnlessAbsent "" (readEnv source) v)
        (fun env o => { o with env }) (fun o => Shape.store_unlessAbsent "" (readEnv source)
          (fun env : String => ({ o with env } : OptionSpec)) v) .env h
    · exact exists_change (Shape.readUnlessAbsent ({} : FlagBinding) (readFlag source) v)
        (fun flag o => { o with flag })
        (fun o => Shape.store_unlessAbsent ({} : FlagBinding) (readFlag source)
          (fun flag : FlagBinding => ({ o with flag } : OptionSpec)) v) .flag h
    · exact exists_change v.readScalarText (fun default o => { o with default }) (fun _ => rfl)
        .default h
    · exact exists_change v.readBool (fun required o => { o with required }) (fun _ => rfl)
        .required h
  comm hne h h' _ := by
    cases h <;> cases h' <;> first | rfl | exact absurd rfl hne

end OptionSpec

namespace FlagBinding

/-- What setting a field changes of a flag. -/
inductive Change : String → (FlagBinding → FlagBinding) → Prop where
  | name (name : String) : Change "name" fun f => { f with name }
  | aliases (aliases : List String) : Change "aliases" fun f => { f with aliases }

theorem setsApart : SetsApart ["name", "aliases"] setFlagField Change where
  change field hfield v f f' h := by
    simp only [List.mem_cons, List.not_mem_nil, or_false] at hfield
    rcases hfield with rfl | rfl
    · exact exists_change v.readString (fun name f => { f with name }) (fun _ => rfl) .name h
    · let readAliases (v : Node) := v.readItems "a sequence" >>= readEach Node.readString
      refine exists_change (Shape.readUnlessAbsent [] readAliases v)
        (fun aliases f => { f with aliases }) (fun f => ?_) .aliases h
      refine Eq.trans ?_ (Shape.store_unlessAbsent [] readAliases
        (fun aliases : List String => ({ f with aliases } : FlagBinding)) v)
      refine bind_congr fun v? => ?_
      cases v? with
      | none => rfl
      | some v => exact (bind_assoc ..).symm
  comm hne h h' _ := by
    cases h <;> cases h' <;> first | rfl | exact absurd rfl hne

end FlagBinding

end CommandSpec
