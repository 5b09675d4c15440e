import Mathlib.Tactic.Lemma
import IsoTp.Link.Basic

/-!
Links that cannot be told apart.

All that a link shows are its answers, so two links are the same to whoever uses them if they answer
any frames, put on them one after the other, the same. What they are inside may differ. A unit that
is offered to two such links is taken by both or refused by both for the same reason, and they still
cannot be told apart afterwards.
-/

namespace IsoTp

variable {σ ε : Type} [Link σ ε]

namespace Link

/-- What a link answers to frames that are put on it one after the other. -/
def replies : List Frame → σ → List (Except ε Unit)
  | [], _ => []
  | f :: fs, line => (put line f).1 :: replies fs (put line f).2

/-- Two links that answer any frames the same. -/
def Indistinct (line line' : σ) : Prop := ∀ frames, replies frames line = replies frames line'

variable {line line' : σ}

lemma Indistinct.refl (line : σ) : Indistinct line line := fun _ => rfl

lemma Indistinct.put_fst (h : Indistinct line line') (f : Frame) :
    (put line f).1 = (put line' f).1 := (List.cons.inj (h [f])).1

lemma Indistinct.put_snd (h : Indistinct line line') (f : Frame) :
    Indistinct (put line f).2 (put line' f).2 := fun fs => (List.cons.inj (h (f :: fs))).2

end Link

/-- Taps over such links with the same offers on record. -/
structure Tap.Indistinct (t t' : Tap σ) : Prop where
  line : Link.Indistinct t.line t'.line
  offers : t.offers = t'.offers

/-- The same unit offered to both. -/
lemma Tap.Indistinct.offer {t t' : Tap σ} (h : t.Indistinct t') (cfg : Config) (id : CanId)
    (pdu : Pdu) :
    ∃ verdict l l', Link.offer cfg id pdu t = (verdict, l) ∧
      Link.offer cfg id pdu t' = (verdict, l') ∧ l.Indistinct l' := by
  unfold Link.offer
  cases cfg.encode? pdu with
  | none => exact ⟨_, t, t', rfl, rfl, h⟩
  | some data =>
    have hfst := h.line.put_fst ⟨id, data, false⟩
    have hsnd := h.line.put_snd ⟨id, data, false⟩
    rcases hput : Link.put t.line (⟨id, data, false⟩ : Frame) with ⟨verdict, rest⟩
    rcases hput' : Link.put t'.line (⟨id, data, false⟩ : Frame) with ⟨verdict', rest'⟩
    rw [hput, hput'] at hfst hsnd
    obtain rfl : verdict = verdict' := hfst
    refine ⟨verdict.mapError .link, ⟨rest, t.offers ++ [⟨⟨id, data, false⟩, verdict.isOk⟩]⟩,
      ⟨rest', t'.offers ++ [⟨⟨id, data, false⟩, verdict.isOk⟩]⟩, ?_, ?_, hsnd, ?_⟩
    · simp only [Link.put, hput]
    · simp only [Link.put, hput']
    · rw [h.offers]

end IsoTp
