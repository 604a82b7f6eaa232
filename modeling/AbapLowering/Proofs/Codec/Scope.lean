import AbapLowering.Proofs.Codec.Definition
import AbapLowering.Scope.Graph

/-!
# Codecs of scopes

Variables, references, scopes and the graph of the scopes of a file are read from every variation of
what is written for them.
-/

namespace AbapLowering

open FieldForm (required optional defaulted)

instance : LawfulCodec ScopeId where
  formOf id := formOf id.number
  json_formOf id := LawfulCodec.json_formOf id.number
  distinct_formOf id := LawfulCodec.distinct_formOf id.number
  formOf_ne_null id := LawfulCodec.formOf_ne_null id.number
  decode?_of_varies h :=
    congrArg (Option.map ScopeId.mk) (LawfulCodec.decode?_of_varies h)

instance : LawfulCodec ScopeKind := .ofNames _ _ (by intro kind; cases kind <;> rfl)

instance : LawfulCodec IdentifierMeta := .ofNames _ _ (by intro property; cases property <;> rfl)

instance : LawfulCodec Variable where
  formOf v := .record [required "name" (formOf v.name), required "type" (formOf v.type),
    defaulted "meta" (v.properties = []) (formOf v.properties), required "file" (formOf v.file),
    required "position" (formOf v.position)]
  json_formOf v := by simp [encode]
  distinct_formOf v := by simp
  formOf_ne_null v := nofun
  decode?_of_varies h := by
    obtain ⟨members, rfl, hname, htype, hmeta, hfile, hposition, -⟩ := h
    simp [decode?, hname.get, htype.get, hmeta.getD, hfile.get, hposition.get]

instance : LawfulCodec ReferenceKind := .ofNames _ _ (by rintro (_ | _ | _ | _) <;> rfl)

instance : LawfulCodec OwnerKind := .ofNames _ _ (by rintro (_ | _) <;> rfl)

instance : LawfulCodec Resolved where
  formOf
    | .dataObject name file position =>
      .tagged "kind" "variable" [required "name" (formOf name), required "file" (formOf file),
        required "position" (formOf position)]
    | .method definition owner ownerKind =>
      .tagged "kind" "method" [required "definition" (formOf definition),
        optional "owner" (owner.map formOf), optional "owner_kind" (ownerKind.map formOf)]
  json_formOf r := by cases r <;> simp [encode]
  distinct_formOf r := by cases r <;> simp
  formOf_ne_null r := by cases r <;> nofun
  decode?_of_varies {r _} h := by
    cases r with
    | dataObject name file position =>
      obtain ⟨members, rfl, hkind, hname, hfile, hposition, -⟩ := h
      simp [decode?, hkind.tag?, hname.get, hfile.get, hposition.get]
    | method definition owner ownerKind =>
      obtain ⟨members, rfl, hkind, hdefinition, howner, hownerKind, -⟩ := h
      simp [decode?, hkind.tag?, hdefinition.get, howner.get?, hownerKind.get?]

instance : LawfulCodec Reference where
  formOf r := .record [required "kind" (formOf r.kind), required "position" (formOf r.position),
    optional "resolved" (r.resolved.map formOf)]
  json_formOf r := by simp [encode]
  distinct_formOf r := by simp
  formOf_ne_null r := nofun
  decode?_of_varies h := by
    obtain ⟨members, rfl, hkind, hposition, hresolved, -⟩ := h
    simp [decode?, hkind.get, hposition.get, hresolved.get?]

instance : LawfulCodec Scope where
  formOf s := .record [required "kind" (formOf s.kind), required "name" (formOf s.name),
    required "file" (formOf s.file), required "coverage" (formOf s.coverage),
    optional "parent" (s.parent.map formOf),
    defaulted "children" (s.children = []) (formOf s.children),
    defaulted "vars" (s.vars = ∅) (formOf s.vars),
    defaulted "classes" (s.classes = ∅) (formOf s.classes),
    defaulted "interfaces" (s.interfaces = ∅) (formOf s.interfaces),
    defaulted "references" (s.references = []) (formOf s.references)]
  json_formOf s := by simp [encode]
  distinct_formOf s := by simp
  formOf_ne_null s := nofun
  decode?_of_varies h := by
    obtain ⟨members, rfl, hkind, hname, hfile, hcoverage, hparent, hchildren, hvars, hclasses,
      hinterfaces, hreferences, -⟩ := h
    simp [decode?, hkind.get, hname.get, hfile.get, hcoverage.get, hparent.get?, hchildren.getD,
      hvars.getD, hclasses.getD, hinterfaces.getD, hreferences.getD]

instance : LawfulCodec ScopeGraph where
  formOf g := .record [required "nodes" (formOf g.scopes.toList)]
  json_formOf g := by simp [encode]
  distinct_formOf g := by simp
  formOf_ne_null g := nofun
  decode?_of_varies h := by
    obtain ⟨members, rfl, hnodes, -⟩ := h
    simp [decode?, hnodes.get]

end AbapLowering
