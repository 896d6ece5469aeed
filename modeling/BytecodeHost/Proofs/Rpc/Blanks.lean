import BytecodeHost.Proofs.Json.Blanks
import BytecodeHost.Proofs.Rpc.Batch

/-!
# Blanks around a message

Blanks behind a message make no difference, and neither do blanks in front of a single request: they
are skipped where the message is read.

Whether it is a batch is decided before it is read, from its first byte alone. Behind blanks a batch
is therefore taken as a single request; what is read is an array, which no request is, and the whole
batch is refused.

## Main results

* `Rpc.answerMessage_append_blank`, `Rpc.answerMessage_blank_append` — messages with blanks
* `Rpc.Http.handle_of_not_posts` — the body matters in a post only
* `Rpc.Server.handle_blanks` — blanks around a body
-/

namespace BytecodeHost

namespace Rpc

/-! ## Messages -/

section

variable {text blanks : List UInt8}

/-- What starts with a blank is no batch. -/
theorem isBatch_of_blank (hblanks : JsonValue.skipBlank blanks = []) : isBatch blanks = false := by
  cases blanks with
  | nil => rfl
  | cons b blanks =>
    obtain rfl | rfl | rfl | rfl :=
      JsonValue.isBlank_iff.mp (JsonValue.skipBlank_cons_eq_nil.mp hblanks).1 <;> rfl

theorem isBatch_append_of_ne_nil (hne : text ≠ []) (behind : List UInt8) :
    isBatch (text ++ behind) = isBatch text := by
  rw [isBatch, isBatch, List.head?_append_of_ne_nil text hne]

/-- What is read from a batch is an array. -/
theorem ofJson?_of_isBatch (h : isBatch text = true) :
    (JsonValue.parse? text).bind Request.ofJson? = none := by
  refine Option.eq_none_iff_forall_ne_some.mpr fun q hq => ?_
  rw [Request.HasText.isBatch hq] at h
  contradiction

variable [Zstd.Compressor] {w : Setting} {s : Storage}

/-- The answer rests on what is read and on whether the message is a batch. -/
theorem answerMessage_congr {text' : List UInt8}
    (hparse : JsonValue.parse? text' = JsonValue.parse? text)
    (hbatch : isBatch text' = isBatch text) :
    answerMessage w s text' = answerMessage w s text := by
  rw [answerMessage, answerMessage, answerBatch, answerBatch, answerSingle, answerSingle, hparse,
    hbatch]

/-- Blanks behind a message do not count. -/
theorem answerMessage_append_blank (hblanks : JsonValue.skipBlank blanks = []) :
    answerMessage w s (text ++ blanks) = answerMessage w s text := by
  refine answerMessage_congr (JsonValue.parse?_append_blank hblanks) ?_
  by_cases hne : text = []
  · rw [hne, List.nil_append]
    exact isBatch_of_blank hblanks
  · exact isBatch_append_of_ne_nil hne blanks

/-- Blanks in front of a single request do not count. -/
theorem answerMessage_blank_append (hblanks : JsonValue.skipBlank blanks = [])
    (h : isBatch text = false ∨ blanks = []) :
    answerMessage w s (blanks ++ text) = answerMessage w s text := by
  by_cases hne : blanks = []
  · rw [hne, List.nil_append]
  · refine answerMessage_congr (JsonValue.parse?_blank_append hblanks) ?_
    rw [isBatch_append_of_ne_nil hne, isBatch_of_blank hblanks, h.resolve_right hne]

/-- Behind blanks, a batch is not taken as one. -/
theorem answerMessage_blank_batch (hblanks : JsonValue.skipBlank blanks = []) (hne : blanks ≠ [])
    (h : isBatch text = true) :
    answerMessage w s (blanks ++ text) = some (s, .refuse .parseError) := by
  have hsingle : isBatch (blanks ++ text) = false :=
    (isBatch_append_of_ne_nil hne text).trans (isBatch_of_blank hblanks)
  rw [answerMessage, hsingle, if_neg Bool.false_ne_true, answerSingle,
    JsonValue.parse?_blank_append hblanks, ofJson?_of_isBatch h]

end

/-! ## Posts -/

namespace Http

variable [Zstd.Compressor] {config : Config} {r : Request}

theorem serve_of_method_ne (h : r.method ≠ "POST") (env : Environment) (s : Storage)
    (text : List UInt8) : serve config env s (r.carrying text) = some (s, methodNotAllowed) :=
  if_pos h

theorem serve_of_content (h : ¬ (r.header "Content-Type" = "" ∨
      r.header "Content-Type" = "application/json")) (hmethod : r.method = "POST")
    (env : Environment) (s : Storage) (text : List UInt8) :
    serve config env s (r.carrying text) = some (s, ofReply (.refuse .invalidRequest)) :=
  (if_neg (not_not.mpr hmethod)).trans (if_pos (not_or.mp h))

/-- **The body matters in a post only.** -/
theorem handle_of_not_posts (h : ¬ r.Posts) (env : Environment) (s : Storage)
    (text text' : List UInt8) :
    handle config env s (r.carrying text') = handle config env s (r.carrying text) := by
  have hroute : route config env s (r.carrying text') = route config env s (r.carrying text) := by
    by_cases hmethod : r.method = "POST"
    · by_cases hcontent : r.header "Content-Type" = "" ∨
          r.header "Content-Type" = "application/json"
      · -- then it is the path that the request is not handed on for
        by_cases htarget : r.target = "*"
        · exact (if_pos htarget).trans (if_pos htarget).symm
        · have hpath : canonicalPath r.path ≠ r.path ∧ r.method ≠ "CONNECT" := by
            refine ⟨fun hpath => h ⟨hmethod, hcontent, htarget, hpath⟩, ?_⟩
            rw [hmethod]
            decide
          have hredirect : ∀ t, route config env s (r.carrying t)
              = some (s, redirect r (canonicalPath r.path ++ r.query)) :=
            fun _ => (if_neg htarget).trans (if_pos hpath)
          rw [hredirect, hredirect]
      · rw [route, route, serve_of_content hcontent hmethod, serve_of_content hcontent hmethod]
        rfl
    · rw [route, route, serve_of_method_ne hmethod, serve_of_method_ne hmethod]
      rfl
  rw [handle, handle, hroute]
  rfl

end Http

namespace Server

section

variable [Zstd.Compressor] {server : Server} {r : Http.Request} {text blanks : List UInt8}

/-- What is answered alike as messages is answered alike as bodies. -/
theorem handle_congr {text' : List UInt8} (env : Environment)
    (hsize : (text.length : Int) ≤ server.config.maxRequestSize)
    (hsize' : (text'.length : Int) ≤ server.config.maxRequestSize)
    (h : answerMessage (server.setting env r) server.storage text'
      = answerMessage (server.setting env r) server.storage text) :
    server.handle env (r.carrying text') = server.handle env (r.carrying text) := by
  by_cases hr : r.Posts
  · rw [handle_carrying hr hsize, handle_carrying hr hsize', h]
  · rw [handle, handle, Http.handle_of_not_posts hr]

/-- **Blanks around a body do not count**, as long as everything fits: behind it, whatever it is,
and in front of it, unless it starts like a batch. A batch that is posted behind blanks is refused,
and none of its requests is answered. -/
theorem handle_blanks (env : Environment) (hblanks : JsonValue.skipBlank blanks = [])
    (hsize : ((text.length + blanks.length : Nat) : Int) ≤ server.config.maxRequestSize) :
    server.handle env (r.carrying (text ++ blanks)) = server.handle env (r.carrying text) ∧
    (isBatch text = false ∨ blanks = [] ∨ ¬ r.Posts →
      server.handle env (r.carrying (blanks ++ text)) = server.handle env (r.carrying text)) ∧
    (isBatch text = true → blanks ≠ [] → r.Posts →
      server.handle env (r.carrying (blanks ++ text))
        = some (server, Http.deliver server.config r (.refuse .parseError))) := by
  have htext : (text.length : Int) ≤ server.config.maxRequestSize := by omega
  have hbehind : ((text ++ blanks).length : Int) ≤ server.config.maxRequestSize := by
    rwa [List.length_append]
  have hfront : ((blanks ++ text).length : Int) ≤ server.config.maxRequestSize := by
    rwa [List.length_append, Nat.add_comm]
  refine ⟨handle_congr env htext hbehind (answerMessage_append_blank hblanks), fun h => ?_,
    fun hbatch hne hr => ?_⟩
  · by_cases hr : r.Posts
    · refine handle_congr env htext hfront (answerMessage_blank_append hblanks ?_)
      exact h.imp_right fun h => h.resolve_right (not_not.mpr hr)
    · rw [handle, handle, Http.handle_of_not_posts hr]
  · rw [handle_carrying hr hfront, answerMessage_blank_batch hblanks hne hbatch]
    rfl

end

/-- The text of a request. -/
def healthText : List UInt8 :=
  Bytes.toBytes "\x7b\"jsonrpc\":\"2.0\",\"method\":\"getHealth\"\x7d".toUTF8

/-- The text of a batch with this request alone. -/
def batchText : List UInt8 :=
  JsonValue.arrayText [healthText]

/-- A line feed may stand in front of a request and behind a batch, but not in front of a batch. -/
theorem handle_blanks_health :
    handle {} ⟨0, 0, 10, 100⟩ (({} : Http.Request).carrying ([0x0A] ++ healthText))
        = handle {} ⟨0, 0, 10, 100⟩ (({} : Http.Request).carrying healthText) ∧
      handle {} ⟨0, 0, 10, 100⟩ (({} : Http.Request).carrying (batchText ++ [0x0A]))
        = handle {} ⟨0, 0, 10, 100⟩ (({} : Http.Request).carrying batchText) ∧
      handle {} ⟨0, 0, 10, 100⟩ (({} : Http.Request).carrying ([0x0A] ++ batchText))
        = some ({}, Http.deliver {} {} (.refuse .parseError)) := by
  have hblank : JsonValue.skipBlank [0x0A] = [] := rfl
  have hsingle :=
    @handle_blanks inferInstance {} {} healthText [0x0A] ⟨0, 0, 10, 100⟩ hblank (by decide)
  have hbatch :=
    @handle_blanks inferInstance {} {} batchText [0x0A] ⟨0, 0, 10, 100⟩ hblank (by decide)
  exact ⟨hsingle.2.1 (.inl rfl), hbatch.1,
    hbatch.2.2 rfl (List.cons_ne_nil _ _) Http.Request.posts_default⟩

/-- A blank in front of a batch makes a difference. -/
theorem handle_blank_batch_ne :
    JsonValue.skipBlank [0x20] = [] ∧
      (([0x20] ++ batchText).length : Int) ≤ ({} : Server).config.maxRequestSize ∧
      handle {} ⟨0, 0, 10, 100⟩ (({} : Http.Request).carrying batchText)
        = some ({}, Http.deliver {} {} (.batch [⟨.null, .ok .health⟩])) ∧
      handle {} ⟨0, 0, 10, 100⟩ (({} : Http.Request).carrying ([0x20] ++ batchText))
        = some ({}, Http.deliver {} {} (.single ⟨.null, .error .parseError⟩)) ∧
      handle {} ⟨0, 0, 10, 100⟩ (({} : Http.Request).carrying ([0x20] ++ batchText))
        ≠ handle {} ⟨0, 0, 10, 100⟩ (({} : Http.Request).carrying batchText) := by
  have hsize : (([0x20] ++ batchText).length : Int) ≤ ({} : Server).config.maxRequestSize := by
    decide
  have halone : handle {} ⟨0, 0, 10, 100⟩ (({} : Http.Request).carrying batchText)
      = some ({}, Http.deliver {} {} (.batch [⟨.null, .ok .health⟩])) := by
    rw [handle_carrying Http.Request.posts_default (by decide)]
    rfl
  have hbehind : handle {} ⟨0, 0, 10, 100⟩ (({} : Http.Request).carrying ([0x20] ++ batchText))
      = some ({}, Http.deliver {} {} (.single ⟨.null, .error .parseError⟩)) := by
    rw [handle_carrying Http.Request.posts_default hsize]
    rfl
  refine ⟨rfl, hsize, halone, hbehind, ?_⟩
  rw [halone, hbehind]
  intro heq
  have hbody := congrArg Http.Response.body (Prod.mk.inj (Option.some.inj heq)).2
  exact absurd (Http.Body.reply.inj hbody) nofun

end Server

end Rpc

end BytecodeHost
