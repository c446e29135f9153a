import Tpt.Lib.Decimal

/-!
The URI of a client pool, `mongo_context_pool_init` of `mongo_api.c`.

The format string lacks the `&` between its last two options.
-/

namespace Tpt

namespace Mongo

/-- The parameters of a pool that `mongo_check_pool_params` normalises. -/
structure PoolParams where
  minSize : Int
  maxSize : Int
  connTimeout : Int
  opTimeout : Int
  deriving DecidableEq

def defaultMinSize : Int := 1

def defaultMaxSize : Int := 10

def defaultConnTimeout : Int := 5000

def defaultOpTimeout : Int := 5000

def mongoCheckPoolParams (params : PoolParams) : PoolParams :=
  let params :=
    if params.minSize ≤ 0 then { params with minSize := defaultMinSize } else params
  let params :=
    if params.maxSize ≤ 0 then { params with maxSize := defaultMaxSize } else params
  let params :=
    if params.maxSize < params.minSize then { params with minSize := params.maxSize } else params
  let params :=
    if params.connTimeout ≤ 0 then { params with connTimeout := defaultConnTimeout } else params
  if params.opTimeout ≤ 0 then { params with opTimeout := defaultOpTimeout } else params

def uriText (ip : List UInt8) (port : Int) (params : PoolParams) : List UInt8 :=
  ascii "mongodb://" ++ ip ++ ascii ":" ++ signedDecimal port ++
    ascii "/?minPoolSize=" ++ signedDecimal params.minSize ++
    ascii "&maxPoolSize=" ++ signedDecimal params.maxSize ++
    ascii "&connectTimeoutMS=" ++ signedDecimal params.connTimeout ++
    ascii "socketTimeoutMS=" ++ signedDecimal params.opTimeout

def uriSize : Nat := 2048

def snprintf (size : Nat) (text : List UInt8) : List UInt8 := text.take (size - 1)

/-- The URI that `mongo_context_pool_init` gives to the driver. -/
def poolUri (ip : List UInt8) (port : Int) (params : PoolParams) : List UInt8 :=
  snprintf uriSize (uriText ip port (mongoCheckPoolParams params))

def queryOf (uri : List UInt8) : List UInt8 := (uri.dropWhile (· ≠ 63)).drop 1

/-- The options of a URI, split at `&`, each split at `=`. -/
def optionsOf (uri : List UInt8) : List (List (List UInt8)) :=
  ((queryOf uri).splitOn 38).map (·.splitOn 61)

/-- The sizes and timeouts are those of a pool that can be used. -/
structure PoolParams.Valid (params : PoolParams) : Prop where
  minSize : 1 ≤ params.minSize
  maxSize : params.minSize ≤ params.maxSize
  connTimeout : 1 ≤ params.connTimeout
  opTimeout : 1 ≤ params.opTimeout

/-- The URI has the normalised parameters as its options. -/
def UriMeets (ip : List UInt8) (port : Int) (params : PoolParams) : Prop :=
  let normal := mongoCheckPoolParams params
  (optionsOf (poolUri ip port params)).Perm
      [[ascii "minPoolSize", signedDecimal normal.minSize],
        [ascii "maxPoolSize", signedDecimal normal.maxSize],
        [ascii "connectTimeoutMS", signedDecimal normal.connTimeout],
        [ascii "socketTimeoutMS", signedDecimal normal.opTimeout]] ∧
    normal.Valid

theorem mongoCheckPoolParams_valid (params : PoolParams) :
    (mongoCheckPoolParams params).Valid := by
  -- Each field of a conditional is the conditional of the fields.
  constructor <;>
    simp only [mongoCheckPoolParams, apply_ite PoolParams.minSize, apply_ite PoolParams.maxSize,
      apply_ite PoolParams.connTimeout, apply_ite PoolParams.opTimeout, ite_self, defaultMinSize,
      defaultMaxSize, defaultConnTimeout, defaultOpTimeout] <;>
    split_ifs <;>
    omega

theorem queryOf_append {before : List UInt8} (query : List UInt8) (plain : 63 ∉ before) :
    queryOf (before ++ 63 :: query) = query := by
  have passed : ∀ byte ∈ before, decide (byte ≠ 63) = true := by
    intro byte member
    rw [decide_eq_true_iff]
    rintro rfl
    exact plain member
  rw [queryOf, List.dropWhile_append_of_pos passed]
  rfl

theorem splitOn_option {key value : List UInt8} (plainKey : 61 ∉ key) (plainValue : 61 ∉ value) :
    (key ++ 61 :: value).splitOn 61 = [key, value] := by
  rw [List.splitOn_append_cons_self_of_not_mem plainKey, List.splitOn_eq_singleton plainValue]

section Options

variable {ip : List UInt8} {port : Int} {params : PoolParams}

def poolQuery (params : PoolParams) : List UInt8 :=
  (ascii "minPoolSize" ++ 61 :: signedDecimal params.minSize) ++ 38 ::
    ((ascii "maxPoolSize" ++ 61 :: signedDecimal params.maxSize) ++ 38 ::
      (ascii "connectTimeoutMS" ++ 61 ::
        (signedDecimal params.connTimeout ++ ascii "socketTimeoutMS" ++ 61 ::
          signedDecimal params.opTimeout)))

theorem uriText_eq (ip : List UInt8) (port : Int) (params : PoolParams) :
    uriText ip port params =
      (ascii "mongodb://" ++ ip ++ ascii ":" ++ signedDecimal port ++ ascii "/") ++
        63 :: poolQuery params := by
  have first : ascii "/?minPoolSize=" = ascii "/" ++ 63 :: (ascii "minPoolSize" ++ [61]) := by
    decide
  have second : ascii "&maxPoolSize=" = 38 :: (ascii "maxPoolSize" ++ [61]) := by decide
  have third : ascii "&connectTimeoutMS=" = 38 :: (ascii "connectTimeoutMS" ++ [61]) := by decide
  have fourth : ascii "socketTimeoutMS=" = ascii "socketTimeoutMS" ++ [61] := by decide
  rw [uriText, first, second, third, fourth, poolQuery]
  simp only [List.append_assoc, List.cons_append, List.nil_append]

theorem queryOf_uriText (plain : 63 ∉ ip) :
    queryOf (uriText ip port params) = poolQuery params := by
  rw [uriText_eq]
  refine queryOf_append _ ?_
  have number : 63 ∉ signedDecimal port := NotInNumbers.not_mem_signedDecimal (by decide) port
  have scheme : 63 ∉ ascii "mongodb://" := by decide
  have colon : 63 ∉ ascii ":" := by decide
  have slash : 63 ∉ ascii "/" := by decide
  simp only [List.mem_append, not_or]
  exact ⟨⟨⟨⟨scheme, plain⟩, colon⟩, number⟩, slash⟩

theorem ampersand_not_mem_option {key value : List UInt8} (plainKey : 38 ∉ key)
    (plainValue : 38 ∉ value) : 38 ∉ key ++ 61 :: value := by
  rw [List.mem_append, List.mem_cons, not_or, not_or]
  exact ⟨plainKey, by decide, plainValue⟩

/-- The last two options are one, which has two `=` in it. -/
theorem options_poolQuery (params : PoolParams) :
    ((poolQuery params).splitOn 38).map (·.splitOn 61) =
      [[ascii "minPoolSize", signedDecimal params.minSize],
        [ascii "maxPoolSize", signedDecimal params.maxSize],
        [ascii "connectTimeoutMS", signedDecimal params.connTimeout ++ ascii "socketTimeoutMS",
          signedDecimal params.opTimeout]] := by
  have noAmpersand := NotInNumbers.not_mem_signedDecimal (show NotInNumbers 38 by decide)
  have noEquals := NotInNumbers.not_mem_signedDecimal (show NotInNumbers 61 by decide)
  have merged : 38 ∉ signedDecimal params.connTimeout ++ ascii "socketTimeoutMS" ++ 61 ::
      signedDecimal params.opTimeout := by
    refine ampersand_not_mem_option ?_ (noAmpersand _)
    rw [List.mem_append, not_or]
    exact ⟨noAmpersand _, by decide⟩
  have mergedKey : 61 ∉ signedDecimal params.connTimeout ++ ascii "socketTimeoutMS" := by
    rw [List.mem_append, not_or]
    exact ⟨noEquals _, by decide⟩
  rw [poolQuery,
    List.splitOn_append_cons_self_of_not_mem
      (ampersand_not_mem_option (by decide) (noAmpersand params.minSize)),
    List.splitOn_append_cons_self_of_not_mem
      (ampersand_not_mem_option (by decide) (noAmpersand params.maxSize)),
    List.splitOn_eq_singleton (ampersand_not_mem_option (by decide) merged)]
  simp only [List.map_cons, List.map_nil]
  rw [splitOn_option (by decide) (noEquals params.minSize),
    splitOn_option (by decide) (noEquals params.maxSize),
    List.splitOn_append_cons_self_of_not_mem (by decide),
    splitOn_option mergedKey (noEquals params.opTimeout)]

/-- The driver reads three options where there should be four. -/
theorem length_optionsOf_poolUri
    (plain : 63 ∉ ip) (fits : (uriText ip port (mongoCheckPoolParams params)).length < uriSize) :
    (optionsOf (poolUri ip port params)).length = 3 := by
  have whole : poolUri ip port params = uriText ip port (mongoCheckPoolParams params) :=
    List.take_of_length_le (Nat.le_sub_one_of_lt fits)
  rw [optionsOf, whole, queryOf_uriText plain, options_poolQuery]
  rfl

end Options

/-- No pool's URI has its parameters as its options. -/
theorem pool_uri_never_meets
    {ip : List UInt8} (port : Int) (params : PoolParams)
    (plain : ∀ byte ∈ ascii "?&=/", byte ∉ ip)
    (fits : (uriText ip port (mongoCheckPoolParams params)).length < uriSize) :
    ¬ UriMeets ip port params := by
  intro meets
  have length := length_optionsOf_poolUri (plain 63 (by decide)) fits
  rw [meets.1.length_eq] at length
  cases length

def smallPool : PoolParams := ⟨0, 0, 0, 0⟩

theorem pool_uri_never_meets_local : ¬ UriMeets (ascii "127.0.0.1") 27017 smallPool :=
  pool_uri_never_meets 27017 smallPool (by decide +kernel) (by decide +kernel)

theorem timeouts_merged :
    optionsOf (poolUri (ascii "127.0.0.1") 27017 smallPool) =
        [[ascii "minPoolSize", ascii "1"], [ascii "maxPoolSize", ascii "10"],
          [ascii "connectTimeoutMS", ascii "5000socketTimeoutMS", ascii "5000"]] ∧
      ¬ UriMeets (ascii "127.0.0.1") 27017 smallPool := by
  have merged : optionsOf (poolUri (ascii "127.0.0.1") 27017 smallPool) =
      [[ascii "minPoolSize", ascii "1"], [ascii "maxPoolSize", ascii "10"],
        [ascii "connectTimeoutMS", ascii "5000socketTimeoutMS", ascii "5000"]] := by
    decide +kernel
  refine ⟨merged, fun meets => ?_⟩
  have length := meets.1.length_eq
  rw [merged] at length
  cases length

end Mongo

end Tpt
